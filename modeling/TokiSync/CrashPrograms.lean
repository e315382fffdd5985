import TokiSync.Runs

/-!
# Programs that may be killed between their statements

A program sends statements to a store, one after another, and goes on with
the reply to each. It is launched again and again over the same store and may
be killed before any of its statements. Store, statements, replies and what a
statement can do to the store are arbitrary; a condition may restrict the
steps taken.
-/

namespace TokiSync.CrashPrograms

open Runs

section

variable {σ α ρ : Type}

/-- The statements still to send. The reply to a statement that failed is
`none`. -/
inductive Program (α ρ : Type) where
  /-- Nothing is left; `ok` tells success from an error. -/
  | done (ok : Bool)
  /-- One statement, and what follows each of its replies. -/
  | exec (stmt : α) (next : Option ρ → Program α ρ)

namespace Program

/-- A failure of the statement ends the program with an error. -/
def require (stmt : α) (next : ρ → Program α ρ) : Program α ρ :=
  .exec stmt fun reply =>
    match reply with
    | none => .done false
    | some r => next r

/-- The program goes on whatever the reply is. -/
def ignore (stmt : α) (next : Program α ρ) : Program α ρ :=
  .exec stmt fun _ => next

end Program

/-- The store and the program running over it, if one is. -/
structure Process (σ α ρ : Type) where
  /-- What survives a kill. -/
  store : σ
  /-- The rest of the running program. -/
  running : Option (Program α ρ)

/-- Labels of the steps. -/
inductive Event (α ρ : Type) where
  | launch
  | exec (stmt : α) (reply : Option ρ)
  | exit (ok : Bool)
  | kill

variable (startup : Program α ρ) (outcome : σ → α → σ → Option ρ → Prop)

/-- One step of the process. `outcome` relates the store before a statement,
the store after it and the reply. -/
inductive Step : Process σ α ρ → Event α ρ → Process σ α ρ → Prop where
  | launch {s : σ} : Step ⟨s,none⟩ .launch ⟨s,some startup⟩
  | exec {s t : σ} {stmt : α} {reply : Option ρ} {next : Option ρ → Program α ρ}
      (effect : outcome s stmt t reply) :
      Step ⟨s,some (.exec stmt next)⟩ (.exec stmt reply) ⟨t,some (next reply)⟩
  | exit {s : σ} {ok : Bool} : Step ⟨s,some (.done ok)⟩ (.exit ok) ⟨s,none⟩
  | kill {s : σ} {prog : Program α ρ} : Step ⟨s,some prog⟩ .kill ⟨s,none⟩

/-- Steps that meet a condition on the store before them. -/
def GuardedStep (mayTake : σ → Event α ρ → Prop) (p : Process σ α ρ) (e : Event α ρ)
    (q : Process σ α ρ) : Prop :=
  Step startup outcome p e q ∧ mayTake p.store e

/-- Some replies take the rest of a program to a successful end. -/
def Finishes : Program α ρ → σ → Prop
  | .done ok, _ => ok=true
  | .exec stmt next, s => ∃ t reply, outcome s stmt t reply ∧ Finishes (next reply) t

/-- Some replies take a program to a rest of it, and its store to another. -/
inductive Reaches : Program α ρ → σ → Program α ρ → σ → Prop where
  | refl {prog : Program α ρ} {s : σ} : Reaches prog s prog s
  | exec {s t u : σ} {stmt : α} {reply : Option ρ} {next : Option ρ → Program α ρ}
      {rest : Program α ρ} (effect : outcome s stmt t reply) (go : Reaches (next reply) t rest u) :
      Reaches (.exec stmt next) s rest u

section

variable {startup outcome}

/-- A program that can finish does so in some run. -/
theorem Finishes.run {init : Process σ α ρ} {history : List (Event α ρ)} {prog : Program α ρ}
    {s : σ} (h : Finishes outcome prog s)
    (run : Run (Step startup outcome) init history ⟨s,some prog⟩) :
    ∃ past p, Run (Step startup outcome) init (.exit true::(past++history)) p := by
  induction prog generalizing s history with
  | done ok =>
    cases h
    exact ⟨[],_,run.next _ .exit⟩
  | exec stmt next ih =>
    obtain ⟨t,reply,heffect,hnext⟩ := h
    obtain ⟨past,p,run⟩ := ih reply hnext (run.next (.exec stmt reply) (.exec heffect))
    exact ⟨past++[.exec stmt reply],p,by simpa using run⟩

/-- A rest that can be reached is there in some run. -/
theorem Reaches.run {init : Process σ α ρ} {history : List (Event α ρ)} {prog rest : Program α ρ}
    {s t : σ} (h : Reaches outcome prog s rest t)
    (run : Run (Step startup outcome) init history ⟨s,some prog⟩) :
    ∃ past, Run (Step startup outcome) init (past++history) ⟨t,some rest⟩ := by
  induction h generalizing history with
  | refl => exact ⟨[],run⟩
  | @exec s t u stmt reply next rest effect _ ih =>
    obtain ⟨past,run⟩ := ih (run.next (.exec stmt reply) (.exec effect))
    exact ⟨past++[.exec stmt reply],by simpa using run⟩

end

section

variable (mayTake : σ → Event α ρ → Prop) (I post : σ → Prop)

/-- From the given store the rest of a program leaves `I` true wherever it
may be killed or ends, and `post` true when it ends with success. -/
def Safe : Program α ρ → σ → Prop
  | .done ok, s => I s ∧ (ok=true → post s)
  | .exec stmt next, s =>
    (mayTake s .kill → I s) ∧
      ∀ t reply, outcome s stmt t reply → mayTake s (.exec stmt reply) → Safe (next reply) t

variable {outcome mayTake I post}

theorem Safe.done_error {s : σ} (hI : I s) :
    Safe outcome mayTake I post (.done false) s :=
  ⟨hI,fun h => Bool.noConfusion h⟩

theorem Safe.done_ok {s : σ} (hI : I s) (hpost : post s) :
    Safe outcome mayTake I post (.done true) s :=
  ⟨hI,fun _ => hpost⟩

/-- The rule of a statement whose failure ends the program. -/
theorem Safe.require {s : σ} {stmt : α} {next : ρ → Program α ρ}
    (hkill : mayTake s .kill → I s)
    (hfailed : ∀ t, outcome s stmt t none → mayTake s (.exec stmt none) → I t)
    (hnext : ∀ t r, outcome s stmt t (some r) → mayTake s (.exec stmt (some r)) →
      Safe outcome mayTake I post (next r) t) :
    Safe outcome mayTake I post (.require stmt next) s := by
  refine ⟨hkill,?_⟩
  intro t reply heffect hmay
  cases reply with
  | none => exact Safe.done_error (hfailed t heffect hmay)
  | some r => exact hnext t r heffect hmay

/-- The rule of a statement whose reply is ignored. -/
theorem Safe.ignore {s : σ} {stmt : α} {next : Program α ρ}
    (hkill : mayTake s .kill → I s)
    (hnext : ∀ t reply, outcome s stmt t reply → mayTake s (.exec stmt reply) →
      Safe outcome mayTake I post next t) :
    Safe outcome mayTake I post (.ignore stmt next) s :=
  ⟨hkill,hnext⟩

/-- A program may be killed only where `I` is true. -/
theorem Safe.killed {prog : Program α ρ} {s : σ} (hsafe : Safe outcome mayTake I post prog s)
    (hmay : mayTake s .kill) : I s := by
  cases prog with
  | done ok => exact hsafe.1
  | exec stmt next => exact hsafe.1 hmay

/-- What is known of a process: `I` at rest, and a safe rest of the program
while it runs. -/
def Sound (outcome : σ → α → σ → Option ρ → Prop) (mayTake : σ → Event α ρ → Prop)
    (I post : σ → Prop) (p : Process σ α ρ) : Prop :=
  match p.running with
  | none => I p.store
  | some prog => Safe outcome mayTake I post prog p.store

variable {startup}

theorem Sound.step (hstart : ∀ s, I s → Safe outcome mayTake I post startup s)
    {p q : Process σ α ρ} {e : Event α ρ} (hsound : Sound outcome mayTake I post p)
    (hstep : GuardedStep startup outcome mayTake p e q) : Sound outcome mayTake I post q := by
  obtain ⟨htaken,hmay⟩ := hstep
  cases htaken with
  | launch => exact hstart _ hsound
  | exec effect => exact hsound.2 _ _ effect hmay
  | exit => exact hsound.1
  | @kill s prog =>
    have hsafe : Safe outcome mayTake I post prog s := hsound
    exact hsafe.killed hmay

/-- Every process reached by guarded steps is sound, when the startup program
is safe wherever `I` is true. -/
theorem Sound.run (hstart : ∀ s, I s → Safe outcome mayTake I post startup s) {init : σ}
    (hinit : I init) {history : List (Event α ρ)} {p : Process σ α ρ}
    (run : Run (GuardedStep startup outcome mayTake) ⟨init,none⟩ history p) :
    Sound outcome mayTake I post p := by
  have hbegin : Sound outcome mayTake I post ⟨init,(none : Option (Program α ρ))⟩ := hinit
  exact run.invariant (I := fun _ p => Sound outcome mayTake I post p) hbegin
    fun _ _ _ _ _ hsound hstep => hsound.step hstart hstep

/-- A launch that has just ended with success leaves `I` and `post` true. -/
theorem Sound.exited (hstart : ∀ s, I s → Safe outcome mayTake I post startup s) {init : σ}
    (hinit : I init) {past : List (Event α ρ)} {p : Process σ α ρ}
    (run : Run (GuardedStep startup outcome mayTake) ⟨init,none⟩ (.exit true::past) p) :
    I p.store ∧ post p.store := by
  cases run with
  | next _ run hstep =>
    have hsound := Sound.run hstart hinit run
    obtain ⟨htaken,-⟩ := hstep
    cases htaken with
    | exit => exact ⟨hsound.1,hsound.2 rfl⟩

/-- Where a kill is always possible, `I` is true of every store reached. -/
theorem Sound.always (hstart : ∀ s, I s → Safe outcome mayTake I post startup s) {init : σ}
    (hinit : I init) (hkill : ∀ s, mayTake s .kill) {history : List (Event α ρ)}
    {p : Process σ α ρ}
    (run : Run (GuardedStep startup outcome mayTake) ⟨init,none⟩ history p) : I p.store := by
  have hsound := Sound.run hstart hinit run
  obtain ⟨s,running⟩ := p
  cases running with
  | none => exact hsound
  | some prog => exact Safe.killed hsound (hkill s)

end

end

end TokiSync.CrashPrograms
