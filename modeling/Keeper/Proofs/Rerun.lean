import Keeper.Command.Run
import Keeper.Proofs.Escape
import Keeper.Proofs.Repetition

/-!
# Keeper — the command, given again

A command that has done its work is given again, and finds the same configuration. Where that asks
for texts and integers, as its settings are declared, there is nothing left to do; where it names the
owner by anything but texts, every command writes.

* **`Options.InTime`** — the time a command may take leaves some for its first request.
* **`Job.work_alone`**, **`outcome_of_work`**, **`work_of_outcome`** — the work of a job and the cycle
  in it.
* **`run_step_bind`**, **`PrintsNothing`** — what the steps of a command come to.
* **`Loads`**, **`Job.From`** — the configuration a command finds, and the job it makes of it.
* **`work_of_run`**, **`run_of_work`** — a command that ends well is one whose job does.
* **`Config.Asks`** — a configuration that asks for what is wanted.
* **`command_settles`** — the second command reads, and reports that nothing has changed.
* **`command_writes`**, **`command_writes_again`** — a configuration that is never settled.
-/

namespace Keeper

open Cluster (Scene Store Segment)
open Http (Request Reply Response)

namespace Command

variable {job : Job} {now : Seconds} {store : Store} {ctx : RequestContext Seconds}

/-- The context of a command that is begun at a time and may take so many seconds. -/
def allowed (allowance : Option Value) (now : Seconds) : Except Fault (RequestContext Seconds) :=
  match allowance with
  | none => .ok {}
  | some seconds => do
    let span ← seconds.toFraction
    return { deadline := .at (← now.add (.fraction span)) }

/-- The time a command may take leaves some for its first request. -/
def Options.InTime (options : Options) (now : Seconds) : Prop :=
  ∃ context, allowed options.deadline now = .ok context ∧ context.OpenAt now

theorem Options.inTime_of_endless {options : Options} (h : options.deadline = none) (now : Seconds) :
    options.InTime now :=
  ⟨{}, by rw [h]; rfl, .endless rfl⟩

/-- What a job does once it has a context. -/
def Job.within (job : Job) (context : RequestContext Seconds) :
    Program Seconds (Request Seconds) Reply (Except Fault Text) :=
  (job.cycle context).run.refine fun op => (job.client.answer context op).run

/-- A deadline that is given in seconds is counted from the time that is read for it. -/
theorem allowed_some (span : Value) (now : Seconds) : allowed (some span) now = do
    let span ← span.toFraction
    return { deadline := .at (← now.add (.fraction span)) } := rfl

/-- The clock is read once when a context is made, before anything is checked. -/
theorem lasting_run {ω ρ : Type} (span : Value) :
    (RequestContext.lasting span : Attempt Seconds ω ρ (RequestContext Seconds)).run
      = .now fun now => .done (allowed (some span) now) := by
  simp only [allowed_some]
  unfold RequestContext.lasting
  cases span.toFraction with
  | error f => rfl
  | ok span =>
    refine congrArg Program.now (funext fun now => ?_)
    -- the time comes from the clock, so it is only now that the sum can be looked at
    show (do
      let time ← liftM (now.add (.fraction span))
      return { deadline := .at time } : Attempt Seconds ω ρ (RequestContext Seconds)).run = .done (do
        return { deadline := .at (← now.add (.fraction span)) })
    cases now.add (.fraction span) <;> rfl

/-- With an allowance a job begins by making its context, and all that follows is done
within it. -/
theorem Job.work_eq {seconds : Value} (h : job.allowance = some seconds) :
    job.work.run = .now fun now =>
      ExceptT.bindCont (fun context => .mk (job.within context)) (allowed (some seconds) now) := by
  unfold Job.work
  rw [h]
  exact congrArg (Program.bind · (ExceptT.bindCont fun context => .mk (job.within context)))
    (lasting_run seconds)

/-- A job gets its context before it sends anything. -/
theorem Job.work_alone (job : Job) (now : Seconds) (store : Store) :
    (job.work.run.run (Store.alone now) store, job.work.run.exchanges (Store.alone now) store)
      = match allowed job.allowance now with
        | .error f => ((.error f, store), [])
        | .ok context => ((job.within context).run (Store.alone now) store,
            (job.within context).exchanges (Store.alone now) store) := by
  -- With no allowance the job makes its context without a look at the clock; otherwise the clock is read
  -- once.
  cases hallowance : job.allowance with
  | none =>
    unfold Job.work
    rw [hallowance]
    rfl
  | some seconds =>
    rw [Job.work_eq hallowance]
    simp only [Program.run, Program.exchanges, Store.alone]
    cases allowed (some seconds) now <;> rfl

def Job.assignment (job : Job) (context : RequestContext Seconds) : Assignment Seconds :=
  { context, owner := job.owner, space := job.space }

/-- The cycle of a job. -/
def Job.sends (job : Job) (context : RequestContext Seconds) : Sending :=
  sending job.engine (job.assignment context) job.client

/-- What is said of an outcome. -/
def lineOf (o : Outcome) : Text := summary "action" o.action.name o.state.key o.action.fields

/-- The name of the service is all that is in doubt about a line which says that nothing
has changed: where a line about a change was printed, or an outlet was asked that takes
less, this one is taken. -/
theorem Outlet.takes_unchanged {outlet outlet' : Outlet} (houtlet : outlet' = .written → outlet = .written)
    {action key : Text} {fields : List FieldGroup}
    (htaken : outlet.refusal? (summary "action" action key fields) = none) :
    outlet'.refusal? (summary "action" "unchanged" key []) = none := by
  rw [refusal?_eq_none_iff] at htaken ⊢
  intro hwritten p hp
  -- The text that was taken holds the same key, so an outlet that refused none of it refuses none of the
  -- key.
  have hkey : p ∈ key.points → p.char?.isSome = true := fun hmem =>
    htaken (houtlet hwritten) p (List.mem_append_left _ (List.mem_append_right _ hmem))
  have hwords : ∀ d ∈ (("action" : Text) ++ "=" ++ "unchanged" ++ " name=").points,
      d.char?.isSome = true := by decide
  rcases List.mem_append.mp hp with hp | hnone
  · exact (List.mem_append.mp hp).elim (hwords p) hkey
  · cases hnone

/-- A job that is to write is its cycle, of which it says what came of it. -/
theorem Job.within_eq (hwrites : job.dryRun = false) :
    job.within ctx = (job.sends ctx).bind fun r => .done (r.map lineOf) := by
  have hcycle : job.cycle ctx = (do return lineOf (← reconcile job.engine (job.assignment ctx))) := by
    unfold Job.cycle
    rw [hwrites]
    rfl
  unfold Job.within
  rw [hcycle]
  refine (Program.refine_bind _ _ _).trans (congrArg _ (funext fun r => ?_))
  cases r <;> rfl

/-- A job that has ended well has run its cycle within a context and says what has come of
it. -/
theorem Job.outcome_of_work (hwrites : job.dryRun = false) {text : Text} {store' : Store}
    (hwork : job.work.run.run (Store.alone now) store = (.ok text, store')) :
    ∃ context outcome, allowed job.allowance now = .ok context ∧ text = lineOf outcome
      ∧ (job.sends context).run (Store.alone now) store = (.ok outcome, store') := by
  have halone := congrArg Prod.fst (job.work_alone now store)
  rw [show job.work.run.run (Store.alone now) store = _ from hwork] at halone
  cases hcontext : allowed job.allowance now with
  | error f =>
    rw [hcontext] at halone
    cases halone
  | ok context =>
    rw [hcontext] at halone
    dsimp only at halone
    rw [Job.within_eq hwrites, Program.run_bind] at halone
    -- The cycle's run gets a name of its own, so that its result can be split without the store being
    -- touched.
    obtain ⟨⟨result, store''⟩, hran⟩ : ∃ ran, (job.sends context).run (Store.alone now) store = ran :=
      ⟨_, rfl⟩
    rw [hran] at halone
    cases result with
    | error f => cases halone
    | ok outcome =>
      obtain ⟨htext, hstore⟩ := Prod.mk.inj halone
      obtain rfl : store' = store'' := hstore
      exact ⟨context, outcome, rfl, Except.ok.inj htext, hran⟩

/-- The converse, with the exchanges: a cycle that ends with an outcome makes the job end
with its line, and the job has sent nothing else. -/
theorem Job.work_of_outcome (hwrites : job.dryRun = false) {context : RequestContext Seconds}
    {outcome : Outcome} {store' : Store} (hcontext : allowed job.allowance now = .ok context)
    (hsends : (job.sends context).run (Store.alone now) store = (.ok outcome, store')) :
    job.work.run.run (Store.alone now) store = (.ok (lineOf outcome), store')
      ∧ job.work.run.exchanges (Store.alone now) store
        = (job.sends context).exchanges (Store.alone now) store := by
  have halone := job.work_alone now store
  rw [hcontext] at halone
  dsimp only at halone
  rw [Job.within_eq hwrites, Program.run_bind, Program.exchanges_bind, hsends] at halone
  obtain ⟨hrun, hexchanges⟩ := Prod.mk.inj halone
  exact ⟨hrun, hexchanges.trans (List.append_nil _)⟩

/-! ## Steps -/

section Steps

variable {α β : Type}

/-- A sequence of steps, run from where the first has left the process; an ending cuts it
short. -/
theorem run_step_bind (x : Step α) (f : α → Step β) (s : Station) :
    (x >>= f).run.run s = match x.run.run s with
      | (.ok a, s') => (f a).run.run s'
      | (.error e, s') => (.error e, s') := by
  have hbind : (x >>= f).run.run s = (ExceptT.bindCont f (x.run.run s).1).run (x.run.run s).2 := rfl
  rw [hbind]
  obtain ⟨result, s'⟩ := x.run.run s
  cases result <;> rfl

/-- A step that prints nothing, however it ends. -/
def PrintsNothing (x : Step α) : Prop := ∀ s, (x.run.run s).2.output = s.output

/-- A sequence prints nothing if neither of its steps does. -/
theorem PrintsNothing.bind {x : Step α} {f : α → Step β} (hx : PrintsNothing x)
    (hf : ∀ a, PrintsNothing (f a)) : PrintsNothing (x >>= f) := by
  intro s
  have hfirst := hx s
  rw [run_step_bind]
  generalize x.run.run s = ran at hfirst ⊢
  obtain ⟨result, s'⟩ := ran
  cases result with
  | error e => exact hfirst
  | ok a => exact (hf a s').trans hfirst

/-- The steps from which all others are made print nothing, apart from a change of the
output itself. -/
theorem PrintsNothing.pure (a : α) : PrintsNothing (Pure.pure a : Step α) := fun _ => rfl

theorem PrintsNothing.get : PrintsNothing (MonadState.get : Step Station) := fun _ => rfl

theorem PrintsNothing.throw (e : Ending) : PrintsNothing (throw e : Step α) := fun _ => rfl

theorem PrintsNothing.modify {f : Station → Station} (hf : ∀ s, (f s).output = s.output) :
    PrintsNothing (modify f : Step Unit) := hf

end Steps

namespace PrintsNothing

/-- What is complained about goes to the other stream, so a refused configuration prints
nothing. -/
theorem orMisconfigured {α : Type} (e : Except Fault α) :
    PrintsNothing (Command.orMisconfigured e) := by
  cases e with
  | ok a => exact .pure a
  | error f =>
    unfold Command.orMisconfigured
    dsimp only
    split
    · exact .bind (.modify fun _ => rfl) fun _ => .throw _
    · exact .throw _

/-- A fault that ends a command is reported by the process around it, and not printed. -/
theorem orFault {α : Type} (e : Except Fault α) : PrintsNothing (Command.orFault e) := by
  cases e with
  | ok a => exact .pure a
  | error f => exact .throw _

/-- A loop prints nothing if its body does not, by induction on the list. -/
theorem forM {α : Type} {f : α → Step PUnit} (hf : ∀ a, PrintsNothing (f a)) (xs : List α) :
    PrintsNothing (xs.forM f) := by
  induction xs with
  | nil => exact .pure _
  | cons x xs ih => exact .bind (hf x) fun _ => ih

/-- The environment file may be complained about line by line, and nothing is printed for
it. -/
theorem loadEnvironment (given : Given) : PrintsNothing (Command.loadEnvironment given) := by
  refine .bind .get fun s => .bind (orMisconfigured _) fun text? => ?_
  cases text? with
  | none => exact .pure _
  | some text =>
    refine .bind (.forM (fun complaint => ?_) _) fun _ => .bind (orMisconfigured _) fun _ => ?_
    · exact .modify fun _ => rfl
    · exact .modify fun _ => rfl

theorem configure (given : Given) (options : Options) :
    PrintsNothing (Command.configure given options) :=
  .bind (loadEnvironment given) fun _ => .bind .get fun _ => orMisconfigured _

theorem openLog (given : Given) (config : Config) : PrintsNothing (Command.openLog given config) := by
  intro s
  exact orFault _ { s with journal := _ }

end PrintsNothing

/-- What is logged during a run goes into the journal of a station, and nothing else comes
of it. So a run with a log and a run without one make the same requests and end alike. -/
theorem run_logging {σ α : Type} (world : Surroundings σ Seconds (Request Seconds) Reply)
    (stamp : Log.Stamp) (adapter : Log.Adapter)
    (p : Program Seconds (Request Seconds) Reply α) (w : σ) (s : Station) :
    ∃ s', p.run (logging world stamp adapter) (w, s) = ((p.run world w).1, (p.run world w).2, s')
      ∧ s'.output = s.output := by
  induction p generalizing w s with
  | done a => exact ⟨s, rfl, rfl⟩
  | cancelled next ih => exact ih _ w s
  | now next ih => exact ih _ _ s
  | log entry next ih => exact ih _ (s.log stamp adapter entry)
  | call op next ih => exact ih _ _ s

/-! ## What a command comes to -/

/-- The words of a command are understood, and around it there is a configuration. -/
structure Loads (given : Given) (words : List Text) (s : Station) (options : Options) (config : Config)
    (t : Station) : Prop where
  parsed : parse words = .ok options
  configured : (configure given options).run.run s = (.ok config, t)

/-- A job is made of a configuration. -/
structure Job.From (job : Job) (options : Options) (config : Config) : Prop where
  client : clientOf config.api = .ok job.client
  engine : ∃ settings, config.service.settings = .ok settings ∧ job.engine = .ofSettings settings
  owner : job.owner = config.owner.identity
  space : job.space = config.target.space
  dryRun : job.dryRun = config.app.dryRun.truthy
  allowance : job.allowance = options.deadline

section Commands

variable {given : Given} {words : List Text} {options : Options} {config : Config} {s t : Station}

/-- The set-up of the logs hands out an adapter, or its fault ends the command. -/
theorem openLog_cases (given : Given) (config : Config) (t : Station) :
    (∃ adapter u, (openLog given config).run.run t = (.ok adapter, u))
      ∨ ∃ f u, (openLog given config).run.run t = (.error (.fault f), u) := by
  obtain ⟨result, u, hopened⟩ : ∃ result u, (openLog given config).run.run t
      = (orFault result).run.run u := ⟨_, _, rfl⟩
  cases result with
  | ok adapter => exact .inl ⟨adapter, u, hopened⟩
  | error f => exact .inr ⟨f, u, hopened⟩

/-- What is prepared once the log is open: no more than is in the configuration. The
second command finds the same configuration, so it prepares a job of the same settings. -/
theorem prepare_of_opened (hconfigured : (configure given options).run.run s = (.ok config, t))
    {adapter : Log.Adapter} {u : Station} (hopened : (openLog given config).run.run t = (.ok adapter, u)) :
    (∃ job s', (prepare given options).run.run s = (.ok job, s') ∧ job.From options config)
      ∨ ∃ f s', (prepare given options).run.run s = (.error (.fault f), s')
        ∧ ∀ job : Job, ¬job.From options config := by
  unfold prepare
  simp only [run_step_bind, hconfigured, hopened]
  -- Two things can still go wrong once the log is open: the client's settings and those of the service.
  cases hclient : clientOf config.api with
  | error f =>
    refine .inr ⟨f, _, rfl, fun job hfrom => ?_⟩
    cases hclient.symm.trans hfrom.client
  | ok client =>
    cases hsettings : config.service.settings with
    | error f =>
      refine .inr ⟨f, _, rfl, fun job hfrom => ?_⟩
      obtain ⟨settings, hfound, -⟩ := hfrom.engine
      cases hsettings.symm.trans hfound
    | ok settings => exact .inl ⟨_, _, rfl, hclient, ⟨settings, hsettings, rfl⟩, rfl, rfl, rfl, rfl⟩

/-- A configured command has its job, made of the configuration, or ends by a fault.
The log is opened in between, and that is what the first case keeps of the steps on
the way. -/
theorem prepare_cases (hconfigured : (configure given options).run.run s = (.ok config, t)) :
    (∃ adapter u job s', (openLog given config).run.run t = (.ok adapter, u)
        ∧ (prepare given options).run.run s = (.ok job, s') ∧ job.From options config)
      ∨ ∃ f s', (prepare given options).run.run s = (.error (.fault f), s') := by
  rcases openLog_cases given config t with ⟨adapter, u, hopened⟩ | ⟨f, u, hfailed⟩
  · rcases prepare_of_opened hconfigured hopened with ⟨job, s', hprepared⟩ | ⟨f, s', hfails, -⟩
    · exact .inl ⟨adapter, u, job, s', hopened, hprepared⟩
    · exact .inr ⟨f, s', hfails⟩
  · refine .inr ⟨f, u, ?_⟩
    unfold prepare
    simp only [run_step_bind, hconfigured, hfailed]

/-- Nothing is printed before the cycle, which is what makes the output of a command the
one line of its summary. -/
theorem PrintsNothing.prepare (given : Given) (options : Options) :
    PrintsNothing (Command.prepare given options) :=
  .bind (.configure given options) fun _ => .bind (.openLog given _) fun _ =>
    .bind (.modify fun _ => rfl) fun _ => .bind (.orFault _) fun _ => .bind (.orFault _) fun _ => .pure _

variable {σ : Type} {world : Surroundings σ Seconds (Request Seconds) Reply} {w w' : σ} {job : Job}

/-- What a command comes to when a job was prepared: its ending is that of the job, and
its output is all there was before and what the conclusion prints. Up to here nothing was
sent. -/
theorem run_of_prepared (hparsed : parse words = .ok options) {s' : Station}
    (hprepared : (prepare given options).run.run s = (.ok job, s'))
    (world : Surroundings σ Seconds (Request Seconds) Reply) (w : σ) :
    ∃ s'', s''.output = s.output ∧ run world given words s w
      = (ending ((conclude given job.adapter (job.work.run.run world w).1).run.run s'').1,
        ((conclude given job.adapter (job.work.run.run world w).1).run.run s'').2,
        (job.work.run.run world w).2) := by
  obtain ⟨s'', hrun, hlogged⟩ := run_logging world given.stamp job.adapter job.work.run w s'
  -- Preparing prints nothing, so the output the conclusion adds to is the output the command started
  -- with.
  have hprinted := PrintsNothing.prepare given options s
  rw [hprepared] at hprinted
  refine ⟨s'', hlogged.trans hprinted, ?_⟩
  unfold run
  rw [hparsed]
  dsimp only
  rw [hprepared]
  dsimp only
  rw [hrun]
  rfl

/-- It ends well if its job does, and if what the job says can be printed. -/
theorem run_of_work (hparsed : parse words = .ok options) {s' : Station}
    (hprepared : (prepare given options).run.run s = (.ok job, s')) {text : Text}
    (hwork : job.work.run.run world w = (.ok text, w')) (hline : given.outlet.refusal? text = none) :
    ∃ s₁, run world given words s w = (.exit 0, s₁, w') ∧ s₁.output = (text ++ "\n") :: s.output := by
  obtain ⟨s'', hprinted, hrun⟩ := run_of_prepared hparsed hprepared world w
  rw [show job.work.run.run world w = _ from hwork, conclude_ok] at hrun
  dsimp only at hrun
  rw [hline] at hrun
  exact ⟨_, hrun, congrArg _ hprinted⟩

/-- A failed job never makes for the exit status 0. -/
theorem ending_of_error (given : Given) (adapter : Log.Adapter) (f : Fault) (s : Station) :
    ending ((conclude given adapter (.error f)).run.run s).1 ≠ .exit 0 := by
  rw [ending_conclude]
  cases f <;> simp

/-- A job that is done still has to say so, and a line that cannot be printed ends the
command. So exit status 0 tells that the line was printed. -/
theorem conclude_of_exit {adapter : Log.Adapter} {text : Text}
    (hends : ending ((conclude given adapter (.ok text)).run.run s).1 = .exit 0) :
    given.outlet.refusal? text = none
      ∧ ((conclude given adapter (.ok text)).run.run s).2.output = (text ++ "\n") :: s.output := by
  rw [conclude_ok] at hends ⊢
  dsimp only at hends ⊢
  cases hline : given.outlet.refusal? text with
  | none => exact ⟨rfl, rfl⟩
  | some fault =>
    rw [hline] at hends
    cases hends

/-- A command that has ended well has opened its log and made a job of its configuration,
and that was done and printed. -/
theorem work_of_run (hloads : Loads given words s options config t) {s₁ : Station}
    (hrun : run world given words s w = (.exit 0, s₁, w')) :
    ∃ adapter u job text, (openLog given config).run.run t = (.ok adapter, u)
      ∧ Job.From job options config ∧ job.work.run.run world w = (.ok text, w')
      ∧ given.outlet.refusal? text = none ∧ s₁.output = (text ++ "\n") :: s.output := by
  rcases prepare_cases hloads.configured with
    ⟨adapter, u, job, s', hopened, hprepared, hfrom⟩ | ⟨f, s', hfails⟩
  · obtain ⟨s'', hprinted, hends⟩ := run_of_prepared hloads.parsed hprepared world w
    obtain ⟨result, hresult⟩ : ∃ result, (job.work.run.run world w).1 = result := ⟨_, rfl⟩
    rw [hresult] at hends
    obtain ⟨hending, hstation, hworld⟩ := (Prod.mk.inj (hrun.symm.trans hends)).imp_right Prod.mk.inj
    -- A failure never ends in exit code 0, so the work came to an outcome.
    cases result with
    | error f => exact absurd hending.symm (ending_of_error given job.adapter f s'')
    | ok text =>
      obtain ⟨hline, houtput⟩ := conclude_of_exit hending.symm
      refine ⟨adapter, u, job, text, hopened, hfrom, Prod.ext hresult hworld.symm, hline, ?_⟩
      rw [hstation, houtput, hprinted]
  · unfold run at hrun
    rw [hloads.parsed] at hrun
    dsimp only at hrun
    rw [hfails] at hrun
    cases hrun

end Commands

/-! ## What is asked for -/

end Command

/-- A configuration asks for what is wanted, and for it to be written. -/
structure Config.Asks (config : Config) (w : Wanted) : Prop where
  owner : config.owner.identity = w.owner
  space : config.target.space = .text w.space
  settings : config.service.settings = .ok w.settings
  writes : config.app.dryRun.truthy = false

namespace Command

section Settled

variable {w : Wanted} {config : Config} {options options' : Options} {job job' : Job}
  {now now' : Seconds} {store store' : Store} {text : Text}

namespace Job.From

theorem writes (hfrom : job.From options config) (hasks : config.Asks w) : job.dryRun = false :=
  hfrom.dryRun.trans hasks.writes

/-- The cycle of a job is that of the engine and the assignment that the configuration
asks for. -/
theorem sends_eq (hfrom : job.From options config) (hasks : config.Asks w)
    (context : RequestContext Seconds) : job.sends context
      = sending (Engine.ofSettings w.settings) (w.assignment context) job.client := by
  obtain ⟨settings, hsettings, hengine⟩ := hfrom.engine
  obtain rfl := Except.ok.inj (hasks.settings.symm.trans hsettings)
  have hassignment : job.assignment context = w.assignment context := by
    unfold Job.assignment Wanted.assignment
    rw [hfrom.owner, hfrom.space, hasks.owner, hasks.space]
  unfold Job.sends
  rw [hengine, hassignment]

/-- The cycle of a job that is made of such a configuration. -/
theorem run_sends (hfrom : job.From options config) (hasks : config.Asks w)
    (context : RequestContext Seconds) (now : Seconds) (store : Store) :
    (job.sends context).run (Store.alone now) store
      = (reconcile (Engine.ofSettings w.settings) (w.assignment context)).run.run
        (job.client.alone context now) store := by
  rw [hfrom.sends_eq hasks]
  exact Program.run_refine _ _ _ _

end Job.From

/-- A job that was done has left a store that a read finds settled. -/
theorem settled_of_work (hfrom : job.From options config) (hasks : config.Asks w)
    (hspace : Segment w.space) (hname : Segment w.name) (hjoined : w.Joined)
    (hbegins : w.Begins (store.find? w.place))
    (hwork : job.work.run.run (Store.alone now) store = (.ok text, store')) :
    ∃ context outcome, allowed options.deadline now = .ok context ∧ text = lineOf outcome
      ∧ w.Valid ∧ w.Settled outcome.state
      ∧ (job.client.alone context now).call (.read w.space w.name) store'
        = (.ok outcome.state, store') := by
  obtain ⟨context, outcome, hallowed, htext, hsends⟩ := Job.outcome_of_work (hfrom.writes hasks) hwork
  rw [hfrom.run_sends hasks] at hsends
  rw [hfrom.allowance] at hallowed
  exact ⟨context, outcome, hallowed, htext, settled_of_run hspace hname hjoined hbegins hsends⟩

/-- A store gives a configuration nothing to do: any job that is in time reads once, and
says that there is no change. -/
def Idle (config : Config) (store : Store) (state : Service) : Prop :=
  ∀ (options : Options) (job : Job) (now : Seconds), job.From options config → options.InTime now →
    job.work.run.run (Store.alone now) store = (.ok (lineOf (.unchanged state)), store)
      ∧ ∃ x, job.work.run.exchanges (Store.alone now) store = [x] ∧ x.1.method = .get

/-- A job that ends well leaves nothing to do, for any later job of the same
configuration. The later job reads once and finds what the first one has left, in a
context of its own. -/
theorem idle_of_work (hfrom : job.From options config) (hasks : config.Asks w)
    (hspace : Segment w.space) (hname : Segment w.name) (hjoined : w.Joined)
    (hbegins : w.Begins (store.find? w.place))
    (hwork : job.work.run.run (Store.alone now) store = (.ok text, store')) :
    ∃ outcome, text = lineOf outcome ∧ Idle config store' outcome.state := by
  obtain ⟨_, outcome, -, htext, hw, hsettled, hread⟩ :=
    settled_of_work hfrom hasks hspace hname hjoined hbegins hwork
  refine ⟨outcome, htext, ?_⟩
  intro options' job' now' hfrom' hintime
  obtain ⟨context, hallowed, hopen⟩ := hintime
  rw [← hfrom'.allowance] at hallowed
  -- the client is the same, so it reads the same
  have hclient : job.client = job'.client := Except.ok.inj (hfrom.client.symm.trans hfrom'.client)
  obtain ⟨x, hhandled, hreply, -⟩ := Client.handled_of_call hread (.inl ⟨_, rfl⟩)
  obtain ⟨t, r, rfl, hfound⟩ := hhandled.of_read
  rw [hclient] at hreply hfound
  have hread' := Client.call_of_found hopen hreply
  rw [hfound] at hread'
  have hcycle := run_of_settled hw hopen hsettled hread'
  obtain ⟨hrun, hexchanges⟩ := Job.work_of_outcome (hfrom'.writes hasks) hallowed
    ((hfrom'.run_sends hasks context now' store').trans hcycle)
  refine ⟨hrun, ?_⟩
  rw [hexchanges, hfrom'.sends_eq hasks]
  exact exchanges_of_unchanged hw hcycle

end Settled

/-! ## One command after another -/

section Scenes

variable {w : Wanted} {given given' : Given} {words words' : List Text} {options options' : Options}
  {config : Config} {s s' s₁ t t' u : Station} {scene scene' scene₁ : Scene (Request Seconds) Reply}
  {adapter : Log.Adapter}

theorem alone_of_still {job : Job} {text : Text} (hstill : scene.Still)
    (hwork : job.work.run.run Scene.overHttp scene = (.ok text, scene₁)) :
    job.work.run.run (Store.alone scene.clock.time) scene.store = (.ok text, scene₁.store) := by
  obtain ⟨entries, hran⟩ := Cluster.run_of_still job.work.run hstill
  obtain ⟨htext, hscene⟩ := Prod.mk.inj (hwork.symm.trans hran)
  exact Prod.ext htext.symm (congrArg Scene.store hscene).symm

/-- **The second command.** A command has ended well where nothing failed, and its
configuration asks for what is wanted. A command that finds the same configuration
afterwards, in the store as it was left, ends well too: it makes one request, which reads,
and says that nothing has changed. Where the first command has had its line printed, the
second prints in the same way or keeps its line. The two are joined by `Idle`: what the
first leaves behind, and all that the second needs to know of it. -/
theorem command_settles (hspace : Segment w.space) (hname : Segment w.name) (hjoined : w.Joined)
    (hasks : config.Asks w)
    (hloads : Loads given words s options config t) (hstill : scene.Still)
    (hbegins : w.Begins (scene.store.find? w.place))
    (hfirst : run Scene.overHttp given words s scene = (.exit 0, s₁, scene₁))
    (hloads' : Loads given' words' s' options' config t')
    (hopened : (openLog given' config).run.run t' = (.ok adapter, u))
    (houtlet : given'.outlet = .written → given.outlet = .written)
    (hstill' : scene'.Still) (hstore : scene'.store = scene₁.store)
    (hintime : options'.InTime scene'.clock.time) :
    ∃ action key fields s₂ scene₂ request,
      s₁.output = (summary "action" action key fields ++ "\n") :: s.output
        ∧ run Scene.overHttp given' words' s' scene' = (.exit 0, s₂, scene₂)
        ∧ s₂.output = (summary "action" "unchanged" key [] ++ "\n") :: s'.output
        ∧ scene₂.store = scene'.store
        ∧ scene₂.calls = request :: scene'.calls ∧ request.method = .get := by
  obtain ⟨-, -, job, text, -, hfrom, hwork, hline, hprinted⟩ := work_of_run hloads hfirst
  obtain ⟨outcome, rfl, hidle⟩ := idle_of_work hfrom hasks hspace hname hjoined hbegins
    (alone_of_still hstill hwork)
  rcases prepare_of_opened hloads'.configured hopened with ⟨job', v, hprepared, hfrom'⟩ | ⟨f, v, -, hnone⟩
  · rw [← hstore] at hidle
    obtain ⟨hwork', x, hexchanges, hget⟩ := hidle options' job' scene'.clock.time hfrom' hintime
    obtain ⟨entries, hran⟩ := Cluster.run_of_still job'.work.run hstill'
    rw [show job'.work.run.run _ _ = _ from hwork', hexchanges] at hran
    obtain ⟨s₂, hsecond, hprinted'⟩ :=
      run_of_work hloads'.parsed hprepared hran (Outlet.takes_unchanged houtlet hline)
    exact ⟨_, _, _, s₂, _, x.1, hprinted, hsecond, hprinted', rfl, rfl, hget⟩
  · -- what the first command made a job of is enough for the second
    exact absurd { hfrom with allowance := rfl } (hnone { job with allowance := options'.deadline })

/-- **A command that always writes.** Where a configuration names the owner by anything
but texts, no command that ends well has found the service unchanged; each has sent a
write. -/
theorem command_writes (hloads : Loads given words s options config t) (hstill : scene.Still)
    (hwrites : config.app.dryRun.truthy = false) (howner : ¬config.owner.identity.reference.Textual)
    (hrun : run Scene.overHttp given words s scene = (.exit 0, s₁, scene₁)) :
    ∃ outcome requests, s₁.output = (lineOf outcome ++ "\n") :: s.output
      ∧ outcome.action ≠ .unchanged ∧ scene₁.calls = requests ++ scene.calls
      ∧ ∃ r ∈ requests, r.method ≠ .get := by
  obtain ⟨-, -, job, text, -, hfrom, hwork, -, hprinted⟩ := work_of_run hloads hrun
  obtain ⟨entries, hran⟩ := Cluster.run_of_still job.work.run hstill
  -- The store of this service is the only one that changes, so the command's run is that of the job
  -- alone.
  obtain ⟨-, hscene⟩ := Prod.mk.inj (hwork.symm.trans hran)
  have hdry := hfrom.dryRun.trans hwrites
  obtain ⟨context, outcome, hallowed, rfl, hsends⟩ :=
    Job.outcome_of_work hdry (alone_of_still hstill hwork)
  obtain ⟨-, hexchanges⟩ := Job.work_of_outcome hdry hallowed hsends
  obtain ⟨settings, -, hengine⟩ := hfrom.engine
  have howner' : ¬(job.assignment context).owner.reference.Textual := by
    rw [show (job.assignment context).owner = config.owner.identity from hfrom.owner]
    exact howner
  unfold Job.sends at hexchanges hsends
  rw [hengine] at hexchanges hsends
  obtain ⟨hchanged, x, hx, hwrite⟩ := exists_write_of_run howner' hsends
  rw [← hexchanges] at hx
  refine ⟨outcome, _, hprinted, hchanged, congrArg Scene.calls hscene, x.1, ?_, hwrite⟩
  exact List.mem_reverse.mpr (List.mem_map_of_mem hx)

end Scenes

/-! ## Two commands

They are given in the same place, where a file says who the owner is. -/

/-- The status with which a command ends by itself. -/
def Ending.status? : Ending → Option Nat
  | .exit status => some status
  | _ => none

/-- Only an exit has a status. -/
theorem Ending.eq_exit_of_status? {e : Ending} {status : Nat} (h : e.status? = some status) :
    e = .exit status := by
  cases e with
  | exit n => exact congrArg _ (Option.some.inj h)
  | usage | fault => cases h

/-- The same of a whole run, in the form in which two commands are put one after the
other. -/
theorem eq_exit_of_status? {α β : Type} {ran : Ending × α × β} {status : Nat}
    (h : ran.1.status? = some status) : ran = (.exit status, ran.2.1, ran.2.2) :=
  Prod.ext (Ending.eq_exit_of_status? h) rfl

/-- The two conditions under which a command is understood, from what can be computed of
it. -/
theorem loads_of_toOption {given : Given} {words : List Text} {options : Options} {config : Config}
    {s : Station} (hparsed : (parse words).toOption = some options)
    (hconfigured : ((configure given options).run.run s).1.toOption = some config) :
    Loads given words s options config ((configure given options).run.run s).2 :=
  ⟨Fault.eq_ok_of_toOption hparsed, Prod.ext (Fault.eq_ok_of_toOption hconfigured) rfl⟩

namespace Sample

def given : Given where
  stamp := { time := "12:00", day := "monday" }
  freshRunId := "run"
  home := "/home"

def words : List Text :=
  ["reconcile", "--owner-name", "cluster", "--namespace", "ops", "--base-url", "https://api"]

def options : Options where
  ownerName := some "cluster"
  space := some "ops"
  baseUrl := some "https://api"

def station (text : Text) : Station where
  journal := { files := ({} : Files.Tree).putFile ["servicesync.yml"] (Text.Utf8.encode text) }

def config (uid : Value) : Config where
  api := { baseUrl := "https://api" }
  owner := { name := "cluster", uid }
  target := { space := "ops" }

def scene (store : Store) : Scene (Request Seconds) Reply where
  clock := { time := .whole 0 }
  store

/-- The commands of the sample are run against a server that answers at once and that
nobody else uses. -/
theorem still_scene (store : Store) : (scene store).Still := ⟨rfl, rfl, rfl⟩

theorem store_scene (store : Store) : (scene store).store = store := rfl

/-- A command where there is a file with a text. -/
def first (text : Text) : Ending × Station × Scene (Request Seconds) Reply :=
  run Scene.overHttp given words (station text) (scene [])

/-- The same one, when the first has left its store behind. -/
def second (text : Text) : Ending × Station × Scene (Request Seconds) Reply :=
  run Scene.overHttp given words (station text) (scene (first text).2.2.store)

/-- What the sample wants. -/
def wanted : Wanted where
  apiVersion := "nodeobservability.olm.openshift.io/v1alpha2"
  kind := "NodeObservability"
  ownerName := "cluster"
  uid := "u"
  ownerSpace := ""
  space := "ops"
  name := "node-observability-agent"
  port := 8443
  targetPort := none
  labelKey := "app"
  certKey := "service.beta.openshift.io/serving-cert-secret-name"
  secretName := none

theorem asks : (config "u").Asks wanted := ⟨rfl, rfl, rfl, rfl⟩

theorem joined : wanted.Joined := by
  constructor <;> simp [wanted]

end Sample

set_option maxRecDepth 100000 in
/-- The second of two commands, where a file gives the owner a text. -/
theorem command_settles_sample :
    let w := Sample.wanted
    (Segment w.space ∧ Segment w.name) ∧ w.Joined ∧ (Sample.config "u").Asks w
      ∧ (∃ t, Loads Sample.given Sample.words (Sample.station "owner:\n  uid: u\n") Sample.options
        (Sample.config "u") t)
      ∧ (Sample.first "owner:\n  uid: u\n").1 = .exit 0
      ∧ (Sample.second "owner:\n  uid: u\n").1 = .exit 0
      ∧ ∃ key request, (Sample.second "owner:\n  uid: u\n").2.1.output
          = [summary "action" "unchanged" key [] ++ "\n"]
        ∧ (Sample.second "owner:\n  uid: u\n").2.2.calls = [request] ∧ request.method = .get := by
  have hruns : (parse Sample.words).toOption = some Sample.options
      ∧ ((configure Sample.given Sample.options).run.run (Sample.station "owner:\n  uid: u\n")).1.toOption
        = some (Sample.config "u")
      ∧ (Sample.first "owner:\n  uid: u\n").1.status? = some 0 := by
    decide +kernel
  have hloads := loads_of_toOption hruns.1 hruns.2.1
  have hfirst := eq_exit_of_status? hruns.2.2
  -- The first command is evaluated, and the theorem says what the second one does.
  have hreach : Segment Sample.wanted.space ∧ Segment Sample.wanted.name := by
    constructor <;> exact ⟨by decide, by decide⟩
  have hbegins : Sample.wanted.Begins (Store.find? [] Sample.wanted.place) := by
    rintro m ⟨⟩
  obtain ⟨adapter, u, -, -, hopened, -, -⟩ := work_of_run hloads hfirst
  obtain ⟨-, key, -, s₂, scene₂, request, -, hsecond, hprinted, -, hcalls, hget⟩ :=
    command_settles hreach.1 hreach.2 Sample.joined Sample.asks hloads (Sample.still_scene []) hbegins
      hfirst hloads hopened id (Sample.still_scene _) (Sample.store_scene _) (Options.inTime_of_endless rfl _)
  have hsecond : Sample.second "owner:\n  uid: u\n" = (.exit 0, s₂, scene₂) := hsecond
  rw [hsecond]
  exact ⟨hreach, Sample.joined, Sample.asks, ⟨_, hloads⟩, congrArg Prod.fst hfirst, rfl, key, request,
    hprinted, hcalls, hget⟩

set_option maxRecDepth 100000 in
/-- **A command that writes again.** Where the file gives the owner an integer, what is
stored is read as the text of it and does not compare equal; so the second command, with
the same configuration, writes. -/
theorem command_writes_again :
    (∃ t, Loads Sample.given Sample.words (Sample.station "owner:\n  uid: 123\n") Sample.options
        (Sample.config (.int 123)) t)
      ∧ (Sample.first "owner:\n  uid: 123\n").1 = .exit 0
      ∧ (Sample.second "owner:\n  uid: 123\n").1 = .exit 0
      ∧ (Sample.second "owner:\n  uid: 123\n").2.1.output
        = [("action=updated name=ops/node-observability-agent fields=ownerReferences\n" : Text)]
      ∧ (Sample.second "owner:\n  uid: 123\n").2.2.calls.map Request.method = [.get, .put, .get] := by
  -- One evaluation of both commands gives every closed fact used below.
  have hall : (parse Sample.words).toOption = some Sample.options
      ∧ ((configure Sample.given Sample.options).run.run (Sample.station "owner:\n  uid: 123\n")).1.toOption
        = some (Sample.config (.int 123))
      ∧ (Sample.first "owner:\n  uid: 123\n").1.status? = some 0
      ∧ (Sample.second "owner:\n  uid: 123\n").1.status? = some 0
      ∧ (Sample.second "owner:\n  uid: 123\n").2.1.output
        = [("action=updated name=ops/node-observability-agent fields=ownerReferences\n" : Text)]
      ∧ (Sample.second "owner:\n  uid: 123\n").2.2.calls.map Request.method = [.get, .put, .get] := by
    decide +kernel
  obtain ⟨hparsed, hconfigured, hfirst, hsecond, hends⟩ := hall
  exact ⟨⟨_, loads_of_toOption hparsed hconfigured⟩, Ending.eq_exit_of_status? hfirst,
    Ending.eq_exit_of_status? hsecond, hends⟩

end Command

end Keeper
