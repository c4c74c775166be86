import Keeper.Proofs.Classification

/-!
# Keeper — where a cycle writes

A create goes to the namespace a cycle was called with and carries the name of its settings. An update
goes to the service that the response before it says it is, and that need not be the one that was asked
for.

* **`Service.Identified`** — the namespace and the name in what is written.
* **`Http.Reply.Names`** — the namespace and the name in what is read; what is missing is empty.
* **`Addressed`** — a write that is addressed to a service, by its URL and by its body.
* **`writes_addressed`** — so every create is, and every update that follows on a response of that name.
* **`write_strays`** — any other response takes the update with it.
-/

namespace Keeper

open Http (Method Request Reply Response)

/-! ## Identities -/

/-- The namespace and the name that stand in the metadata of a manifest. -/
def Service.Identified (manifest : Fields) (space name : Value) : Prop :=
  ∃ metadata, Fields.get? manifest (.text "metadata") = some (.map metadata)
    ∧ Fields.get? metadata (.text "namespace") = some space
    ∧ Fields.get? metadata (.text "name") = some name

/-- The namespace and the name of the service that a reply holds: what is missing is
empty. -/
def Http.Reply.Names (reply : Reply) (space name : Text) : Prop :=
  ∃ fields metadata, reply.fields? = some fields ∧ fields.part "metadata" = .ok metadata
    ∧ space = (metadata.getD (.text "namespace") (.text "")).display
    ∧ name = (metadata.getD (.text "name") (.text "")).display

/-- A reply names one service at most. -/
theorem Http.Reply.Names.functional {reply : Reply} {space name space' name' : Text}
    (h : reply.Names space name) (h' : reply.Names space' name') : space = space' ∧ name = name' := by
  obtain ⟨fields, metadata, hfields, hmetadata, rfl, rfl⟩ := h
  obtain ⟨fields', metadata', hfields', hmetadata', rfl, rfl⟩ := h'
  obtain rfl := Option.some.inj (hfields.symm.trans hfields')
  obtain rfl := Except.ok.inj (hmetadata.symm.trans hmetadata')
  exact ⟨rfl, rfl⟩

namespace Service

variable {s : Service} {manifest : Fields}

/-- So does a manifest. -/
theorem Identified.functional {space name space' name' : Value}
    (h : Identified manifest space name) (h' : Identified manifest space' name') :
    space = space' ∧ name = name' := by
  obtain ⟨metadata, hmetadata, hspace, hname⟩ := h
  obtain ⟨metadata', hmetadata', hspace', hname'⟩ := h'
  obtain rfl := Value.map.inj (Option.some.inj (hmetadata.symm.trans hmetadata'))
  exact ⟨Option.some.inj (hspace.symm.trans hspace'), Option.some.inj (hname.symm.trans hname')⟩

/-- Whatever it is written over, the metadata has the namespace and the name of the
service: both are set, whatever the kept fields say, and what is written after them stands
at other names. So the body of a write agrees with its address. -/
theorem get?_metadata_identity (s : Service) (kept : Fields) :
    Fields.get? (s.metadata kept) (.text "namespace") = some s.space
      ∧ Fields.get? (s.metadata kept) (.text "name") = some s.name := by
  -- what is written after them stands at other names
  have hlater {key : Text} (hlabels : key ≠ "labels") (hannotations : key ≠ "annotations")
      (howners : key ≠ "ownerReferences") (hversion : key ≠ "resourceVersion") :
      Fields.get? (s.metadata kept) (.text key)
        = Fields.get? (Fields.setAll kept [("name", s.name), ("namespace", s.space)]) (.text key) := by
    unfold metadata
    rw [Fields.get?_put_of_ne _ (by simpa using hversion),
      Fields.get?_put_of_ne _ (by simpa using howners),
      Fields.get?_put_of_ne _ (by simpa using hannotations),
      Fields.get?_put_of_ne _ (by simpa using hlabels)]
  rw [hlater (by simp) (by simp) (by simp) (by simp), hlater (by simp) (by simp) (by simp) (by simp)]
  simp only [Fields.setAll_cons, Fields.setAll_nil, Fields.get?_set]
  exact ⟨rfl, rfl⟩

theorem identified_of_manifest (h : s.manifest = .ok manifest) : Identified manifest s.space s.name := by
  obtain ⟨keptMetadata, keptSpec, -, -, rfl⟩ := eq_of_manifest h
  obtain ⟨hspace, hname⟩ := s.get?_metadata_identity keptMetadata
  exact ⟨s.metadata keptMetadata, by simp [get?_written], hspace, hname⟩

end Service

/-- What is read has the identity that the reply gives to it. -/
theorem Http.Reply.names_of_ofManifest {reply : Reply} {fields : Fields} {s : Service}
    (hfields : reply.fields? = some fields) (hread : Service.ofManifest (.map fields) = .ok s) :
    ∃ space name, reply.Names space name ∧ s.space = .text space ∧ s.name = .text name := by
  obtain ⟨m, metadata, _, hm, hfrom⟩ := Service.ofManifest_eq_ok_iff.mp hread
  obtain rfl := Value.map.inj hm
  obtain ⟨space, hspace, hspace'⟩ := hfrom.space
  obtain ⟨name, hname, hname'⟩ := hfrom.name
  exact ⟨space, name, ⟨fields, metadata, hfields, hfrom.metadata,
    (Value.shown_eq_ok_iff.mp hspace).2.symm, (Value.shown_eq_ok_iff.mp hname).2.symm⟩, hspace', hname'⟩

/-! ## Addresses -/

/-- A write is addressed to a service: by the path of its URL and by the identity in its
body. -/
structure Addressed {τ : Type} (c : Client τ) (request : Request τ) (path : Text)
    (space name : Value) : Prop where
  url : request.url = c.baseUrl ++ "/" ++ path
  body : ∃ body, request.body = some body ∧ Service.Identified body space name

section Writes

variable {τ : Type} {c : Client τ} {settings : ServiceSettings} {a : Assignment τ}
  {desired : Service} {before : List (RequestExchange τ)} {request : Request τ}

/-- A request is addressed to one service at most. -/
theorem Addressed.functional {path path' : Text} {space name space' name' : Value}
    (h : Addressed c request path space name) (h' : Addressed c request path' space' name') :
    space = space' ∧ name = name' := by
  obtain ⟨body, hbody, hidentified⟩ := h.body
  obtain ⟨body', hbody', hidentified'⟩ := h'.body
  obtain rfl := Option.some.inj (hbody.symm.trans hbody')
  exact hidentified.functional hidentified'

/-- A create is addressed to the namespace of the cycle and carries the name of the
settings. -/
theorem Requested.addressed_create
    (hdesired : (Engine.ofSettings settings).desired a = .ok desired)
    (h : Requested c a.space desired before request) (hpost : request.method = .post) :
    Addressed c request (Client.collectionPath a.space) a.space settings.name := by
  obtain ⟨_, hbuilt, rfl⟩ := Engine.eq_of_desired hdesired
  obtain ⟨_, _, -, -, -, rfl⟩ := ServiceSettings.eq_of_build hbuilt
  cases h with
  | read => cases hpost
  | update => cases hpost
  | create _ timeout body hreads hbody =>
    exact ⟨rfl, body, rfl, Service.identified_of_manifest hbody⟩

/-- An update is addressed to the service that was read, by the one reply before it. The
reply's fields were read as a service, so the names in the address are those the reply
gives, whatever was asked for. -/
theorem Requested.addressed_update
    (h : Requested c a.space desired before request) (hput : request.method = .put) :
    ∃ look reply space name,
      before = [(look, reply)] ∧ look.method = .get
        ∧ look.url = c.baseUrl ++ "/" ++ Client.servicePath a.space desired.name
        ∧ reply.Names space name
        ∧ Addressed c request (Client.servicePath (.text space) (.text name)) (.text space)
          (.text name) := by
  cases h with
  | read => cases hput
  | create => cases hput
  | update timeout t reply fields body current hfields hread hdrift hbody =>
    obtain ⟨space, name, hnames, hspace, hname⟩ := Http.Reply.names_of_ofManifest hfields hread
    have hidentified := Service.identified_of_manifest hbody
    -- the comparison leaves the identity of what was read
    rw [show (current.compare desired).patched.space = .text space from hspace,
      show (current.compare desired).patched.name = .text name from hname] at hidentified
    refine ⟨_, reply, space, name, rfl, rfl, rfl, hnames, ?_, body, rfl, hidentified⟩
    rw [← hspace, ← hname]
    rfl

end Writes

/-- **What a cycle writes to.** Whatever is replied: a create is addressed to the
namespace the cycle was called with, and carries the name of the settings. An update
follows on one read, of that service, and is addressed to the service that the reply
names; so it is addressed to the one that was asked for exactly if the reply names that
one. Both halves are read off `Requested`, which says of each request of a cycle what came
before it and what it was made from. -/
theorem writes_addressed {σ : Type} (settings : ServiceSettings) (a : Assignment Seconds)
    (c : Client Seconds) (world : Surroundings σ Seconds (Request Seconds) Reply) (s : σ)
    {before after : List (RequestExchange Seconds)} {request : Request Seconds} {reply : Reply}
    (hsplit : (sending (Engine.ofSettings settings) a c).exchanges world s
      = before ++ (request, reply) :: after) :
    (request.method = .post →
      Addressed c request (Client.collectionPath a.space) a.space settings.name)
    ∧ (request.method = .put → ∃ look answer,
      before = [(look, answer)] ∧ look.method = .get
        ∧ look.url = c.baseUrl ++ "/" ++ Client.servicePath a.space settings.name
        ∧ (∃ space name, answer.Names space name
          ∧ Addressed c request (Client.servicePath (.text space) (.text name)) (.text space)
            (.text name))
        ∧ ∀ space name, a.space = .text space → settings.name = .text name →
          (Addressed c request (Client.servicePath a.space settings.name) a.space settings.name
            ↔ answer.Names space name)) := by
  obtain ⟨desired, hdesired, hrequested⟩ := requested_of_sending hsplit
  refine ⟨hrequested.addressed_create hdesired, fun hput => ?_⟩
  obtain ⟨look, answer, space, name, hbefore, hget, hurl, hnames, haddressed⟩ :=
    hrequested.addressed_update hput
  have hname : desired.name = settings.name := by
    obtain ⟨_, hbuilt, rfl⟩ := Engine.eq_of_desired hdesired
    obtain ⟨_, _, -, -, -, rfl⟩ := ServiceSettings.eq_of_build hbuilt
    rfl
  rw [hname] at hurl
  refine ⟨look, answer, hbefore, hget, hurl, ⟨space, name, hnames, haddressed⟩, ?_⟩
  intro space' name' hspace' hname'
  rw [hspace', hname']
  constructor
  · -- the body has one identity, which is that of the reply
    intro hmanaged
    obtain ⟨hspaces, hidentities⟩ := haddressed.functional hmanaged
    obtain rfl : space = space' := by simpa using hspaces
    obtain rfl : name = name' := by simpa using hidentities
    exact hnames
  · intro hasked
    obtain ⟨rfl, rfl⟩ := hnames.functional hasked
    exact haddressed

/-- A manifest that has a namespace and a name, and nothing else. -/
def Service.bareManifest (space name : Text) : Fields :=
  [(.text "metadata", .map [(.text "namespace", .text space), (.text "name", .text name)])]

def Http.Response.naming (space name : Text) : Response :=
  Cluster.accepted 200 "OK" (Service.bareManifest space name)

/-- The reply of the example names the service it is made for. -/
theorem Http.Reply.names_naming (space name : Text) :
    (Reply.response (.naming space name)).Names space name := by
  have haccepted : (200 : Int) < 400 := by decide
  have hfields :
      (Reply.response (.naming space name)).fields? = some (Service.bareManifest space name) := by
    unfold Http.Reply.fields? Http.Response.naming
    exact Response.fields?_accepted haccepted "OK" _
  refine ⟨_, _, hfields, Fields.part_of_map (Fields.get?_cons_text _ _ _ _), ?_, ?_⟩
  · rw [Fields.getD_of_get? (Fields.get?_cons_text _ _ _ _)]
    rfl
  · rw [Fields.getD_of_get? (v := .text name) (by simp [Fields.get?_cons_text])]
    rfl

/-- A reply that names the service that was asked for leads the update there. -/
theorem writes_addressed_asked :
    ∃ before request reply after,
      (sending (Engine.ofSettings {}) Assignment.sample Client.sample).exchanges
          (Surroundings.answering (.response (.naming "ops" "node-observability-agent"))) ()
        = before ++ (request, reply) :: after
      ∧ request.method = .put
      ∧ Addressed Client.sample request
          (Client.servicePath Assignment.sample.space (Value.text "node-observability-agent"))
          Assignment.sample.space (Value.text "node-observability-agent") := by
  have hmethods : ((sending (Engine.ofSettings {}) Assignment.sample Client.sample).exchanges
      (Surroundings.answering (.response (.naming "ops" "node-observability-agent"))) ()).map
        (·.1.method) = [.get, .put, .get] := by decide +kernel
  have hwrites := @writes_addressed _ {} Assignment.sample Client.sample
    (Surroundings.answering (.response (.naming "ops" "node-observability-agent"))) ()
  have hanswer {request : Request Seconds} {reply : Reply} :=
    @Program.answer_of_mem_exchanges _ _ _ _ _
      (Surroundings.answering (.response (.naming "ops" "node-observability-agent")))
      (sending (Engine.ofSettings {}) Assignment.sample Client.sample) () request reply
  -- From here on only the three methods and the theorem speak of the run; it is not evaluated again.
  generalize (sending (Engine.ofSettings {}) Assignment.sample Client.sample).exchanges
    (Surroundings.answering (.response (.naming "ops" "node-observability-agent"))) () = es
    at hmethods hwrites hanswer ⊢
  obtain ⟨x, xs, rfl, -, hrest⟩ := List.map_eq_cons_iff.mp hmethods
  obtain ⟨y, ys, rfl, hput, -⟩ := List.map_eq_cons_iff.mp hrest
  obtain ⟨look, answer, hbefore, -, -, -, hiff⟩ := (@hwrites [x] ys y.1 y.2 rfl).2 hput
  obtain rfl := List.singleton_inj.mp hbefore
  obtain ⟨_, rfl⟩ := hanswer (List.mem_cons_self)
  exact ⟨[_], y.1, y.2, ys, rfl, hput, (hiff _ _ rfl rfl).mpr (Http.Reply.names_naming _ _)⟩

/-- **An update strays.** A reply that names another service leads the update there. The
cycle has asked for one service and is given another one's manifest; nothing compares the
two names. -/
theorem write_strays :
    ∃ before request reply after,
      (sending (Engine.ofSettings {}) Assignment.sample Client.sample).exchanges
          (Surroundings.answering (.response (.naming "kube-system" "kube-dns"))) ()
        = before ++ (request, reply) :: after
      ∧ request.method = .put
      ∧ request.url = ("https://api:6443/api/v1/namespaces/kube-system/services/kube-dns" : Text)
      ∧ ¬Addressed Client.sample request
          (Client.servicePath Assignment.sample.space (Value.text "node-observability-agent"))
          Assignment.sample.space (Value.text "node-observability-agent") := by
  have hcalls : ((sending (Engine.ofSettings {}) Assignment.sample Client.sample).exchanges
      (Surroundings.answering (.response (.naming "kube-system" "kube-dns"))) ()).map
        (fun x => (x.1.method, x.1.url))
      = ([(Method.get, "https://api:6443/api/v1/namespaces/ops/services/node-observability-agent"),
          (Method.put, "https://api:6443/api/v1/namespaces/kube-system/services/kube-dns"),
          (Method.get, "https://api:6443/api/v1/namespaces/ops/services/node-observability-agent")]
        : List (Method × Text)) := by
    decide +kernel
  -- The three requests are known now; the run itself need not be opened again.
  generalize (sending (Engine.ofSettings {}) Assignment.sample Client.sample).exchanges
    (Surroundings.answering (.response (.naming "kube-system" "kube-dns"))) () = es at hcalls ⊢
  obtain ⟨x, xs, rfl, -, hrest⟩ := List.map_eq_cons_iff.mp hcalls
  obtain ⟨y, ys, rfl, hy, -⟩ := List.map_eq_cons_iff.mp hrest
  obtain ⟨hput, hurl⟩ := Prod.mk.inj hy
  -- The addresses differ in their last segments, so the update went elsewhere than asked.
  refine ⟨[x], y.1, y.2, ys, rfl, hput, hurl, fun hasked => ?_⟩
  have hother : (("https://api:6443/api/v1/namespaces/kube-system/services/kube-dns" : Text)
      = Client.sample.baseUrl ++ "/"
        ++ Client.servicePath Assignment.sample.space (Value.text "node-observability-agent")) :=
    hurl.symm.trans hasked.url
  exact absurd hother (by decide +kernel)

end Keeper
