import Keeper.Proofs.Replies
import Keeper.Proofs.Version

/-!
# Keeper — the store behind requests, request by request

What the requests of a client reach in a store, and what the store answers them.

* **`Store.find?_insert`** — what was stored is found again.
* **`target?_servicePath`**, **`target?_collectionPath`** — the URLs of a client name the services
  they were made for, below any base URL.
* **`Store.reply_get`**, **`Store.reply_post`**, **`Store.reply_put`** — the replies.
* **`Store.respondPost_cases`**, **`Store.respondPut_cases`** — when a write takes effect.
* **`Store.accepts`** — whether it does; what is not accepted changes nothing.
-/

namespace Keeper.Cluster

open Http (Request Response Reply Method)

/-! ## Places -/

namespace Store

theorem samePlace_text (a b : Text) :
    samePlace (.text a, .text b) (.text a, .text b) = true := by
  simp [samePlace, Scalar.eqv, Scalar.place?]

/-- What was stored is found again; a place that is there keeps its spelling. -/
theorem find?_insert (store : Store) {place : Place} (hplace : samePlace place place = true)
    (manifest : Fields) : (store.insert place manifest).find? place = some manifest := by
  induction store with
  | nil => simp [insert, find?, hplace]
  | cons e rest ih =>
    obtain ⟨p, m⟩ := e
    by_cases h : samePlace p place = true
    · simp [insert, find?, h]
    · simp [insert, find?, h, ih]

/-- What was removed is not found. -/
theorem find?_erase (store : Store) (place : Place) : (store.erase place).find? place = none := by
  induction store with
  | nil => rfl
  | cons e rest ih =>
    obtain ⟨p, m⟩ := e
    by_cases h : samePlace p place = true
    · simpa [erase, h] using ih
    · simpa [erase, find?, h] using ih

end Store

/-! ## URLs

A URL is split at its slashes, so it is known by its names from the last one on. -/

/-- A name that can stand alone in a path. -/
def Segment (t : Text) : Prop := t ≠ "" ∧ t.contains '/' = false

/-- There is always a first piece, if need be an empty one. -/
theorem pieces_ne_nil {α : Type} [DecidableEq α] (separator : α) (xs : List α) :
    Files.pieces separator xs ≠ [] := by
  cases xs with
  | nil => simp [Files.pieces]
  | cons x rest =>
    simp only [Files.pieces]
    split
    · simp
    · split <;> simp

/-- A separator splits a list in two whose pieces are taken apart. The lists come from
URLs, and the statement is about any elements. -/
theorem pieces_append {α : Type} [DecidableEq α] (separator : α) (xs ys : List α) :
    Files.pieces separator (xs ++ separator :: ys)
      = Files.pieces separator xs ++ Files.pieces separator ys := by
  induction xs with
  | nil => simp [Files.pieces]
  | cons x rest ih =>
    by_cases h : x = separator
    · simp [Files.pieces, h, ih]
    · obtain ⟨piece, more, hpieces⟩ := List.exists_cons_of_ne_nil (pieces_ne_nil separator rest)
      simp [Files.pieces, h, ih, hpieces]

/-- A list without separators is its only piece. -/
theorem pieces_of_notMem {α : Type} [DecidableEq α] {separator : α} {xs : List α}
    (h : separator ∉ xs) : Files.pieces separator xs = [xs] := by
  induction xs with
  | nil => rfl
  | cons x rest ih =>
    obtain ⟨hx, hrest⟩ : ¬separator = x ∧ separator ∉ rest := by simpa using h
    have hx' : ¬x = separator := fun h => hx h.symm
    simp [Files.pieces, hx', ih hrest]

/-- The segments of a path that is put together with a slash are those of its parts. -/
theorem names_append (s t : Text) : Files.names (s ++ "/" ++ t) = Files.names s ++ Files.names t := by
  have hpoints : (s ++ "/" ++ t).points = s.points ++ CodePoint.char '/' :: t.points := by
    show s.points ++ [CodePoint.char '/'] ++ t.points = _
    simp
  unfold Files.names
  rw [hpoints, pieces_append, List.map_append]

/-- A text with no slash in it is its own only segment. -/
theorem names_of_segment {t : Text} (h : t.contains '/' = false) : Files.names t = [t] := by
  have hmem : CodePoint.char '/' ∉ t.points := by simpa [Text.contains] using h
  unfold Files.names
  rw [pieces_of_notMem hmem]
  rfl

/-- No piece holds a separator, since each is cut at the first one. So the segments of a
URL cannot hide another path inside a name. -/
theorem notMem_of_mem_pieces {α : Type} [DecidableEq α] {separator : α} {xs piece : List α}
    (h : piece ∈ Files.pieces separator xs) : separator ∉ piece := by
  induction xs generalizing piece with
  | nil =>
    obtain rfl : piece = [] := by simpa [Files.pieces] using h
    exact List.not_mem_nil
  | cons x rest ih =>
    by_cases hx : x = separator
    · rcases (by simpa [Files.pieces, hx] using h : piece = [] ∨ piece ∈ Files.pieces separator rest) with
        rfl | h
      · exact List.not_mem_nil
      · exact ih h
    · obtain ⟨first, more, hpieces⟩ := List.exists_cons_of_ne_nil (pieces_ne_nil separator rest)
      rcases (by simpa [Files.pieces, hx, hpieces] using h : piece = x :: first ∨ piece ∈ more) with
        rfl | h
      -- the first piece grows, and only by what is no separator
      · have hfirst : separator ∉ first := ih (by simp [hpieces])
        simpa [hfirst] using fun h : separator = x => hx h.symm
      · exact ih (by simp [hpieces, h])

theorem contains_of_mem_names {s t : Text} (h : t ∈ Files.names s) : t.contains '/' = false := by
  obtain ⟨piece, hpiece, rfl⟩ := List.mem_map.mp h
  simpa [Text.contains] using notMem_of_mem_pieces hpiece

theorem names_ne_nil (t : Text) : Files.names t ≠ [] := by
  simp [Files.names, pieces_ne_nil]

/-- Texts are put together in any order, by the same fact about their points. -/
theorem append_assoc (s t u : Text) : s ++ t ++ u = s ++ (t ++ u) :=
  Text.ext (List.append_assoc s.points t.points u.points)

/-- The path of a collection as its segments, in the shape to which `names_append`
applies. -/
theorem collectionPath_eq (space : Text) :
    Client.collectionPath (.text space)
      = "api" ++ "/" ++ ("v1" ++ "/" ++ ("namespaces" ++ "/" ++ (space ++ "/" ++ "services"))) := by
  -- the path is taken apart at its slashes, so that each name can be split off
  have hfront : ("api/v1/namespaces/" : Text)
      = "api" ++ "/" ++ ("v1" ++ "/" ++ ("namespaces" ++ "/")) := by decide
  have hback : ("/services" : Text) = "/" ++ "services" := by decide
  show "api/v1/namespaces/" ++ space ++ "/services" = _
  rw [hfront, hback]
  simp only [append_assoc]

/-- The names in the URL of the services of a namespace, the last one first. -/
theorem names_collectionPath (base : Text) {space : Text} (hspace : Segment space) :
    (Files.names (base ++ "/" ++ Client.collectionPath (.text space))).reverse
      = [("services" : Text), space, "namespaces", "v1", "api"] ++ (Files.names base).reverse := by
  rw [names_append, collectionPath_eq, names_append, names_append, names_append, names_append,
    names_of_segment hspace.2, names_of_segment (t := "api") (by decide),
    names_of_segment (t := "v1") (by decide), names_of_segment (t := "namespaces") (by decide),
    names_of_segment (t := "services") (by decide)]
  simp

/-- The segments of a service's URL from the last to the first. The base comes last, so
that it need not be known when the server looks at the end of the URL. -/
theorem names_servicePath (base : Text) {space name : Text} (hspace : Segment space)
    (hname : Segment name) :
    (Files.names (base ++ "/" ++ Client.servicePath (.text space) (.text name))).reverse
      = [name, "services", space, "namespaces", "v1", "api"] ++ (Files.names base).reverse := by
  have hpath : base ++ "/" ++ Client.servicePath (.text space) (.text name)
      = base ++ "/" ++ Client.collectionPath (.text space) ++ "/" ++ name := by
    show base ++ "/" ++ (Client.collectionPath (.text space) ++ "/" ++ name) = _
    simp only [append_assoc]
  rw [hpath, names_append, names_of_segment hname.2, List.reverse_append,
    names_collectionPath base hspace]
  rfl

/-- The URL that the client builds for a service is taken by the server for that service,
whatever base the client has been given. -/
theorem target?_servicePath (method : Method) (hmethod : method ≠ .post) (base : Text)
    {space name : Text} (hspace : Segment space) (hname : Segment name) :
    target? method (base ++ "/" ++ Client.servicePath (.text space) (.text name))
      = some ⟨space, some name⟩ := by
  have hnames := names_servicePath base hspace hname
  -- The base address has at least one segment, which stands in front of the three of the path.
  obtain ⟨b, bs, hbase⟩ := List.exists_cons_of_ne_nil
    (List.reverse_ne_nil_iff.mpr (names_ne_nil base))
  have hname' : name.isEmpty = false := (Text.isEmpty_eq_false_iff name).mpr hname.1
  have hspace' : space.isEmpty = false := (Text.isEmpty_eq_false_iff space).mpr hspace.1
  rw [hbase] at hnames
  unfold target?
  rw [hnames]
  cases method with
  | post => exact absurd rfl hmethod
  | get => simp [hname', collection?, hspace']
  | put => simp [hname', collection?, hspace']

/-- The URL of a collection is the place of a creation, and of nothing else. The base may
end in any segments: the path is read from its end. -/
theorem target?_collectionPath (base : Text) {space : Text} (hspace : Segment space) :
    target? .post (base ++ "/" ++ Client.collectionPath (.text space)) = some ⟨space, none⟩ := by
  have hnames := names_collectionPath base hspace
  obtain ⟨b, bs, hbase⟩ := List.exists_cons_of_ne_nil
    (List.reverse_ne_nil_iff.mpr (names_ne_nil base))
  have hspace' : space.isEmpty = false := (Text.isEmpty_eq_false_iff space).mpr hspace.1
  rw [hbase] at hnames
  unfold target?
  rw [hnames]
  simp [collection?, hspace']

/-- The namespace in a URL is a nonempty segment of it. -/
theorem collection?_eq_some {names : List Text} {space : Text} (h : collection? names = some space) :
    space ≠ "" ∧ space ∈ names := by
  unfold collection? at h
  split at h
  next =>
    split at h
    · cases h
    next hnames =>
      obtain rfl := Option.some.inj h
      simp only [Bool.or_eq_true, not_or, Bool.not_eq_true] at hnames
      exact ⟨(Text.isEmpty_eq_false_iff _).mp hnames.1.1.1, by simp⟩
  next => cases h

/-- A URL names a service by names that can stand in it. Whatever a request was addressed
to, its names are not empty and hold no separator. -/
theorem segments_of_target? {method : Method} {url space name : Text}
    (h : target? method url = some ⟨space, some name⟩) : Segment space ∧ Segment name := by
  have hmem {t : Text} (ht : t ∈ (Files.names url).reverse) : t.contains '/' = false :=
    contains_of_mem_names (List.mem_reverse.mp ht)
  -- The cases are those of the segments from the end. Only the last one names a service, and there each
  -- name comes from a segment of the URL.
  unfold target? at h
  split at h
  next =>
    split at h
    · obtain ⟨_, -, heq⟩ := Option.map_eq_some_iff.mp h
      cases heq
    · cases h
  next => cases h
  next last services rest _ hnames =>
    rw [hnames] at hmem
    split at h
    next hservices =>
      obtain ⟨space', hspace, heq⟩ := Option.map_eq_some_iff.mp h
      obtain ⟨rfl, rfl⟩ : space' = space ∧ last = name := by simpa using heq
      obtain ⟨hne, hrest⟩ := collection?_eq_some hspace
      simp only [Bool.and_eq_true, Bool.not_eq_true'] at hservices
      exact ⟨⟨hne, hmem (by simp [hrest])⟩,
        ⟨(Text.isEmpty_eq_false_iff _).mp hservices.2, hmem (by simp)⟩⟩
    · cases h
  next => cases h

/-- What is posted is about a collection, and nothing else is. So the method alone
says whether a request creates, and an update can never be taken for a creation by
the server. -/
theorem name_eq_none_iff {method : Method} {url : Text} {t : Target} (h : target? method url = some t) :
    t.name = none ↔ method = .post := by
  unfold target? at h
  split at h
  next =>
    split at h
    · obtain ⟨space, -, rfl⟩ := Option.map_eq_some_iff.mp h
      simp
    · cases h
  next => cases h
  -- Any other method addresses one service, so the target bears a name.
  next hpost _ =>
    split at h
    · obtain ⟨space, -, rfl⟩ := Option.map_eq_some_iff.mp h
      simpa using hpost
    · cases h
  next => cases h

/-! ## Replies

A request of a client reaches the place it was made for, whatever else is stored. -/

namespace Store

/-- A request for a service leaves the store and gets the service, if there is one. -/
theorem respond_of_get {τ : Type} {store : Store} {r : Request τ} {space name : Text}
    (hmethod : r.method = .get) (htarget : target? .get r.url = some ⟨space, some name⟩) :
    store.respond r = (store.respondGet space name, store) := by
  unfold respond
  rw [hmethod]
  simp only [htarget]

/-- What is read of a service is what JSON gives of it as it is stored. Anything else in
the reply's fields would need a reply that is no refusal and yet not of this store. -/
theorem plainFields?_of_reply {τ : Type} {store : Store} {r : Request τ} {space name : Text}
    {fields : Fields} (hmethod : r.method = .get)
    (htarget : target? .get r.url = some ⟨space, some name⟩)
    (hfields : (store.reply r).1.fields? = some fields) :
    ∃ m, store.find? (.text space, .text name) = some m ∧ Json.plainFields? m = some fields := by
  unfold reply at hfields
  rw [respond_of_get hmethod htarget] at hfields
  unfold respondGet at hfields
  cases hfind : store.find? (.text space, .text name) with
  | none =>
    rw [hfind] at hfields
    -- A refusal is a status 404, whose body is not taken for fields.
    have hnone : (notStored name).fields? = none := Response.fields?_refusal (by omega) _ _
    cases hnone.symm.trans hfields
  | some m =>
    rw [hfind] at hfields
    cases hplain : Json.plainFields? m with
    | none =>
      simp only [deliver, accepted, hplain] at hfields
      cases hfields
    | some plain =>
      simp only [deliver, accepted, hplain] at hfields
      have htaken : (accepted 200 "OK" plain).fields? = some plain :=
        Response.fields?_accepted (by omega) _ _
      exact ⟨m, rfl, hplain.trans (htaken.symm.trans hfields)⟩

section Client

variable {τ : Type} (store : Store) (c : Client τ) {space name : Text} (timeout : τ)

/-- The three ways in which the client asks, with the URLs it builds: each reaches the
handler that is meant for it. -/
theorem respond_get (hspace : Segment space) (hname : Segment name) :
    store.respond (c.request .get (Client.servicePath (.text space) (.text name)) none timeout)
      = (store.respondGet space name, store) :=
  respond_of_get rfl (target?_servicePath .get nofun c.baseUrl hspace hname)

theorem respond_post (hspace : Segment space) (body : Fields) :
    store.respond (c.request .post (Client.collectionPath (.text space)) (some body) timeout)
      = store.respondPost space body := by
  have htarget := target?_collectionPath c.baseUrl hspace
  unfold respond Client.request
  simp only [htarget, Option.getD_some]

theorem respond_put (hspace : Segment space) (hname : Segment name) (body : Fields) :
    store.respond
        (c.request .put (Client.servicePath (.text space) (.text name)) (some body) timeout)
      = store.respondPut space name body := by
  have htarget := target?_servicePath .put nofun c.baseUrl hspace hname
  unfold respond Client.request
  simp only [htarget, Option.getD_some]

/-- What arrives at the client is the handler's answer as it is delivered over the
wire. -/
theorem reply_get (hspace : Segment space) (hname : Segment name) :
    store.reply (c.request .get (Client.servicePath (.text space) (.text name)) none timeout)
      = (deliver (store.respondGet space name), store) := by
  unfold reply
  rw [store.respond_get c timeout hspace hname]

theorem reply_post (hspace : Segment space) (body : Fields) :
    store.reply (c.request .post (Client.collectionPath (.text space)) (some body) timeout)
      = (deliver (store.respondPost space body).1, (store.respondPost space body).2) := by
  unfold reply
  rw [store.respond_post c timeout hspace body]

theorem reply_put (hspace : Segment space) (hname : Segment name) (body : Fields) :
    store.reply (c.request .put (Client.servicePath (.text space) (.text name)) (some body) timeout)
      = (deliver (store.respondPut space name body).1, (store.respondPut space name body).2) := by
  unfold reply
  rw [store.respond_put c timeout hspace hname body]

/-- An answer with a plain manifest is delivered as it stands, with the manifest in the
form in which it is written. -/
theorem deliver_accepted (status : Int) (reason : Text) {manifest plain : Fields}
    (h : Json.plainFields? manifest = some plain) :
    deliver (accepted status reason manifest) = .response (accepted status reason plain) := by
  unfold deliver accepted
  simp only [h]

end Client

/-! ## Writes

A write takes effect when it is accepted, and then only if there was nothing to be created, or what
was stored had the version of what is written. Everything else leaves the store as it is. -/

variable {store : Store} {space name : Text} {body : Fields}

/-- A creation either changes nothing and fails, or stores the manifest at a place that
was free and succeeds. Every later argument about creations is by these two cases. -/
theorem respondPost_cases (store : Store) (space : Text) (body : Fields) :
    (store.respondPost space body).2 = store ∧ (store.respondPost space body).1.isFailure = .ok true
      ∨ ∃ name : Scalar, ((fieldsAt body "metadata").getD "name" .null).key = .ok name
        ∧ store.find? (.text space, name) = none
        ∧ (store.respondPost space body).2 = store.insert (.text space, name) (created body)
        ∧ (store.respondPost space body).1.isFailure = .ok false := by
  unfold respondPost
  split
  next => exact .inl ⟨rfl, Response.isFailure_refusal (by omega) _ _⟩
  next name hname =>
    cases hfind : store.find? (.text space, name) with
    | some m => exact .inl ⟨rfl, Response.isFailure_refusal (by omega) _ _⟩
    | none => exact .inr ⟨name, hname, hfind, rfl, Response.isFailure_accepted (by omega) _ _⟩

/-- An update either changes nothing and fails, or replaces a stored manifest of the same
version by its successor and succeeds. -/
theorem respondPut_cases (store : Store) (space name : Text) (body : Fields) :
    (store.respondPut space name body).2 = store
        ∧ (store.respondPut space name body).1.isFailure = .ok true
      ∨ ∃ stored next, store.find? (.text space, .text name) = some stored
        ∧ (storedVersion body).eqv (storedVersion stored) = true
        ∧ succeeding stored body = .ok next
        ∧ (store.respondPut space name body).2 = store.insert (.text space, .text name) next
        ∧ (store.respondPut space name body).1.isFailure = .ok false := by
  unfold respondPut
  cases hfind : store.find? (.text space, .text name) with
  | none => exact .inl ⟨rfl, Response.isFailure_refusal (by omega) _ _⟩
  | some stored =>
    dsimp only
    -- A stale version and a number too long to count on are both refused, and the store stays as it is.
    cases hversion : (storedVersion body).eqv (storedVersion stored) with
    | false => exact .inl ⟨rfl, Response.isFailure_refusal (by omega) _ _⟩
    | true =>
      cases hnext : succeeding stored body with
      | error f => exact .inl ⟨rfl, Response.isFailure_refusal (by omega) _ _⟩
      | ok next =>
        exact .inr ⟨stored, next, rfl, hversion, hnext, rfl, Response.isFailure_accepted (by omega) _ _⟩

/-- Whether a request is a write that takes effect. -/
def accepts {τ : Type} (store : Store) (r : Request τ) : Bool :=
  r.method ≠ .get && (store.respond r).1.isFailure.toOption == some false

/-- What a request does to a store, and whether it takes effect: nothing, a service is
created where there is none, or one is updated over the version that the update was made
from. -/
inductive Effect {τ : Type} (store : Store) (r : Request τ) : Bool → Store → Prop where
  | none : Effect store r false store
  | created (space : Text) (name : Scalar) (hmethod : r.method = .post)
    (htarget : target? .post r.url = some ⟨space, none⟩)
    (hname : ((fieldsAt (r.body.getD []) "metadata").getD "name" .null).key = .ok name)
    (hfind : store.find? (.text space, name) = .none) :
    Effect store r true (store.insert (.text space, name) (created (r.body.getD [])))
  | updated (space name : Text) (stored next : Fields) (hmethod : r.method = .put)
    (htarget : target? .put r.url = some ⟨space, some name⟩)
    (hfind : store.find? (.text space, .text name) = some stored)
    (hversion : (storedVersion (r.body.getD [])).eqv (storedVersion stored) = true)
    (hnext : succeeding stored (r.body.getD []) = .ok next) :
    Effect store r true (store.insert (.text space, .text name) next)

/-- What a request does to the store is one of the effects, over all methods and URLs. The
store of a run is followed through this statement alone. -/
theorem effect_respond {τ : Type} (store : Store) (r : Request τ) :
    Effect store r (store.accepts r) (store.respond r).2 := by
  unfold accepts
  cases htarget : target? r.method r.url with
  | none =>
    -- a URL that names nothing is refused whatever the method
    have hrefused : noPath.isFailure = .ok true := Response.isFailure_refusal (by omega) _ _
    simpa [respond, htarget, hrefused, Except.toOption] using .none
  | some t =>
    obtain ⟨space, name⟩ := t
    have hmethod := name_eq_none_iff htarget
    cases name with
    | none =>
      -- a collection is only posted to, a service only read and updated
      have hpost := hmethod.mp rfl
      rw [hpost] at htarget
      rcases store.respondPost_cases space (r.body.getD []) with
        ⟨hstore, hfailure⟩ | ⟨name, hname, hfind, hstore, hfailure⟩
      · simpa [respond, hpost, htarget, hstore, hfailure, Except.toOption] using .none
      · simpa [respond, hpost, htarget, hstore, hfailure, Except.toOption]
          using .created space name hpost htarget hname hfind
    | some name =>
      cases hput : r.method with
      | post => cases hmethod.mpr hput
      | get =>
        rw [hput] at htarget
        simpa [respond_of_get hput htarget] using .none
      | put =>
        rw [hput] at htarget
        rcases store.respondPut_cases space name (r.body.getD []) with
          ⟨hstore, hfailure⟩ | ⟨stored, next, hfind, hversion, hnext, hstore, hfailure⟩
        · simpa [respond, hput, htarget, hstore, hfailure, Except.toOption] using .none
        · simpa [respond, hput, htarget, hstore, hfailure, Except.toOption]
            using .updated space name stored next hput htarget hfind hversion hnext

/-- What does not take effect leaves the store as it is. -/
theorem respond_of_not_accepts {τ : Type} {r : Request τ} (h : store.accepts r = false) :
    (store.respond r).2 = store := by
  have heffect := store.effect_respond r
  generalize (store.respond r).2 = store' at heffect ⊢
  rw [h] at heffect
  cases heffect with
  | none => rfl

end Store

end Keeper.Cluster
