import TokiSync.Runs
import Mathlib.Logic.Function.Basic
import Mathlib.Logic.Relation

/-!
# Interleaved sessions over shared services

A session handles one request after another. Handling a request is a program of
calls to services; every call takes effect at once on a state that all sessions
share, and between two calls the other sessions and an environment may take any
steps. A contract says what a session remembers of its own requests and calls,
which calls it may make then and which replies it relies on. When the handler
meets its contract and what the contract allows keeps a property of the shared
state, both hold in every run.

A program may also stop early with a reason, and what would follow the part that
stopped is left out. Requests, calls, replies, states, results and reasons are
arbitrary.
-/

namespace TokiSync.InterleavedSessions

open Runs

section

variable {κ : Type} {ρ : κ → Type} {β γ : Type}

/-- The rest of a program. Every call has its own type of replies. -/
inductive Program (ρ : κ → Type) (β : Type) : Type where
  /-- Nothing is left but the result. -/
  | done (result : β)
  /-- One call, and what follows each of its replies. -/
  | call (op : κ) (next : ρ op → Program ρ β)

namespace Program

/-- One program after the other. -/
def bind : Program ρ β → (β → Program ρ γ) → Program ρ γ
  | .done b, f => f b
  | .call op next, f => .call op fun reply => (next reply).bind f

instance : Monad (Program ρ) where
  pure := .done
  bind := Program.bind

/-- A call whose reply is the result. -/
def perform (op : κ) : Program ρ (ρ op) := .call op .done

end Program

/-- What happens to a session. -/
inductive Event (ρ : κ → Type) (A : Type) where
  /-- It begins. -/
  | opened
  /-- A request arrives. -/
  | arrive (request : A)
  /-- A call is answered. -/
  | call (op : κ) (reply : ρ op)
  /-- The request is handled and the session waits for the next one. -/
  | finish
  /-- The session ends. -/
  | closed
  /-- The session is ended from outside, wherever it is. -/
  | dropped

/-- How far a session has come. -/
inductive Phase (ρ : κ → Type) (S : Type) where
  /-- Not begun. -/
  | unopened
  /-- Between two requests. -/
  | waiting (s : S)
  /-- In the middle of a request. -/
  | handling (prog : Program ρ (Option S))
  /-- Over. -/
  | ended

/-- Whether a session has begun and not ended. -/
def Phase.Open {S : Type} : Phase ρ S → Prop
  | .unopened => False
  | .waiting _ => True
  | .handling _ => True
  | .ended => False

/-- The shared state and the sessions. -/
structure Host (σ ι : Type) (ρ : κ → Type) (S : Type) where
  /-- What all sessions share. -/
  shared : σ
  /-- The sessions. -/
  phases : ι → Phase ρ S

/-- Labels of the steps. -/
inductive Label (ι : Type) (ρ : κ → Type) (A ε : Type) where
  /-- A step of a session. -/
  | session (i : ι) (e : Event ρ A)
  /-- A step of the environment. -/
  | environment (e : ε)

/-- What steps do to the shared state. -/
structure Services (σ ι : Type) (ρ : κ → Type) (ε : Type) where
  /-- A session begins. -/
  opens : ι → σ → σ → Prop
  /-- A call of a session is answered. -/
  calls : ι → (op : κ) → σ → ρ op → σ → Prop
  /-- A session is over. -/
  closes : ι → σ → σ → Prop
  /-- The environment takes a step. -/
  environment : ε → σ → σ → Prop

section

variable {σ ι A ε S : Type} [DecidableEq ι]
variable (services : Services σ ι ρ ε) (first : S) (handler : S → A → Program ρ (Option S))

/-- One step of a session or of the environment. -/
inductive Step : Host σ ι ρ S → Label ι ρ A ε → Host σ ι ρ S → Prop where
  | opened {h : Host σ ι ρ S} {i : ι} {t : σ} (phase : h.phases i=.unopened)
      (effect : services.opens i h.shared t) :
      Step h (.session i .opened) ⟨t,Function.update h.phases i (.waiting first)⟩
  | arrive {h : Host σ ι ρ S} {i : ι} {s : S} {request : A} (phase : h.phases i=.waiting s) :
      Step h (.session i (.arrive request))
        ⟨h.shared,Function.update h.phases i (.handling (handler s request))⟩
  | call {h : Host σ ι ρ S} {i : ι} {op : κ} {next : ρ op → Program ρ (Option S)} {reply : ρ op}
      {t : σ} (phase : h.phases i=.handling (.call op next))
      (effect : services.calls i op h.shared reply t) :
      Step h (.session i (.call op reply))
        ⟨t,Function.update h.phases i (.handling (next reply))⟩
  | finish {h : Host σ ι ρ S} {i : ι} {s : S} (phase : h.phases i=.handling (.done (some s))) :
      Step h (.session i .finish) ⟨h.shared,Function.update h.phases i (.waiting s)⟩
  | closed {h : Host σ ι ρ S} {i : ι} {t : σ} (phase : h.phases i=.handling (.done none))
      (effect : services.closes i h.shared t) :
      Step h (.session i .closed) ⟨t,Function.update h.phases i .ended⟩
  | dropped {h : Host σ ι ρ S} {i : ι} {t : σ} (phase : (h.phases i).Open)
      (effect : services.closes i h.shared t) :
      Step h (.session i .dropped) ⟨t,Function.update h.phases i .ended⟩
  | environment {h : Host σ ι ρ S} {e : ε} {t : σ}
      (effect : services.environment e h.shared t) :
      Step h (.environment e) ⟨t,h.phases⟩

section

variable {services first handler} {init : Host σ ι ρ S} {past : List (Label ι ρ A ε)}
variable {phases : ι → Phase ρ S} {i : ι} {s t : σ}

/-- A step that changes the phase of one session goes on with a run. -/
theorem phase_next {label : Label ι ρ A ε} {phase phase' : Phase ρ S}
    (run : Run (Step services first handler) init past ⟨s,Function.update phases i phase⟩)
    (taken : Step services first handler ⟨s,Function.update phases i phase⟩ label
      ⟨t,Function.update (Function.update phases i phase) i phase'⟩) :
    Run (Step services first handler) init (label::past) ⟨t,Function.update phases i phase'⟩ := by
  rw [Function.update_idem] at taken
  exact run.next _ taken

/-- A session begins in a run. -/
theorem opens_next (run : Run (Step services first handler) init past
      ⟨s,Function.update phases i .unopened⟩) (effect : services.opens i s t) :
    Run (Step services first handler) init (.session i .opened::past)
      ⟨t,Function.update phases i (.waiting first)⟩ :=
  phase_next run (.opened (Function.update_self i _ phases) effect)

/-- A request arrives in a run. -/
theorem arrive_next {waiting : S} (request : A) (run : Run (Step services first handler) init past
      ⟨s,Function.update phases i (.waiting waiting)⟩) :
    Run (Step services first handler) init (.session i (.arrive request)::past)
      ⟨s,Function.update phases i (.handling (handler waiting request))⟩ :=
  phase_next run (.arrive (Function.update_self i _ phases))

/-- A call is answered in a run. -/
theorem call_next {op : κ} {next : ρ op → Program ρ (Option S)} (reply : ρ op)
    (run : Run (Step services first handler) init past
      ⟨s,Function.update phases i (.handling (.call op next))⟩)
    (effect : services.calls i op s reply t) :
    Run (Step services first handler) init (.session i (.call op reply)::past)
      ⟨t,Function.update phases i (.handling (next reply))⟩ :=
  phase_next run (.call (Function.update_self i _ phases) effect)

/-- A session waits for its next request in a run. -/
theorem finish_next {waiting : S} (run : Run (Step services first handler) init past
      ⟨s,Function.update phases i (.handling (.done (some waiting)))⟩) :
    Run (Step services first handler) init (.session i .finish::past)
      ⟨s,Function.update phases i (.waiting waiting)⟩ :=
  phase_next run (.finish (Function.update_self i _ phases))

end

/-- Whether an event is a request or a call. -/
def Event.isInner {A : Type} : Event ρ A → Bool
  | .arrive _ => true
  | .call _ _ => true
  | _ => false

/-- The events of a session in a history, newest first. -/
def own (i : ι) : List (Label ι ρ A ε) → List (Event ρ A)
  | [] => []
  | .session j e::past => if j=i then e::own i past else own i past
  | .environment _::past => own i past

/-- The requests and calls of a session in a history, newest first. -/
def inner (i : ι) (history : List (Label ι ρ A ε)) : List (Event ρ A) :=
  (own i history).filter Event.isInner

end

/-- What a session remembers, may do and relies on. -/
structure Contract (ρ : κ → Type) (A μ : Type) where
  /-- Memory before the session. -/
  start : μ
  /-- Memory when a request arrives. -/
  arrive : μ → A → μ
  /-- Calls the session may make. -/
  mayCall : μ → κ → Prop
  /-- Replies the session relies on. -/
  answers : μ → (op : κ) → ρ op → Prop
  /-- Memory when a call is answered. -/
  called : μ → (op : κ) → ρ op → μ
  /-- Memory when the session ends. -/
  quit : μ → μ

section

variable {A μ : Type} (c : Contract ρ A μ)

/-- A program makes only calls it may make, and leaves a property of the
memory and its result. -/
def Meets (post : μ → β → Prop) : μ → Program ρ β → Prop
  | m, .done b => post m b
  | m, .call op next => c.mayCall m op ∧ ∀ reply, c.answers m op reply →
      Meets post (c.called m op reply) (next reply)

variable {c}

/-- The rule of a result. -/
theorem Meets.pure {post : μ → β → Prop} {m : μ} {b : β} (h : post m b) :
    Meets c post m (Pure.pure b) := h

/-- The rule of a call. -/
theorem Meets.perform {post : μ → β → Prop} {m : μ} {op : κ} {f : ρ op → Program ρ β}
    (hmay : c.mayCall m op)
    (hnext : ∀ reply, c.answers m op reply → Meets c post (c.called m op reply) (f reply)) :
    Meets c post m (Program.perform op >>= f) := ⟨hmay,hnext⟩

/-- The rule of two programs one after the other. -/
theorem Meets.bind {mid : μ → β → Prop} {post : μ → γ → Prop} {m : μ} {prog : Program ρ β}
    {f : β → Program ρ γ} (hfirst : Meets c mid m prog)
    (hnext : ∀ m b, mid m b → Meets c post m (f b)) : Meets c post m (prog >>= f) := by
  induction prog generalizing m with
  | done b => exact hnext m b hfirst
  | call op next ih => exact ⟨hfirst.1,fun reply hreply => ih reply (hfirst.2 reply hreply)⟩

/-- A program that leaves a property leaves a weaker one. -/
theorem Meets.mono {post post' : μ → β → Prop} {m : μ} {prog : Program ρ β}
    (h : Meets c post m prog) (himp : ∀ m b, post m b → post' m b) : Meets c post' m prog := by
  induction prog generalizing m with
  | done b => exact himp m b h
  | call op next ih => exact ⟨h.1,fun reply hreply => ih reply (h.2 reply hreply)⟩

/-- Memory after one more event. -/
def Contract.observe (c : Contract ρ A μ) (m : μ) : Event ρ A → μ
  | .opened => m
  | .arrive request => c.arrive m request
  | .call op reply => c.called m op reply
  | .finish => m
  | .closed => c.quit m
  | .dropped => c.quit m

/-- Memory after the events of a session, newest first. -/
def Contract.follow (c : Contract ρ A μ) : List (Event ρ A) → μ
  | [] => c.start
  | e::past => c.observe (c.follow past) e

section

variable {σ ι ε S : Type}

/-- What holds between a session and its memory; `ready` is about a session
that waits. -/
def InPhase (c : Contract ρ A μ) (ready : μ → S → Prop) (m : μ) : Phase ρ S → Prop
  | .unopened => m=c.start
  | .waiting s => ready m s
  | .handling prog => Meets c (fun m result => ∀ s, result=some s → ready m s) m prog
  | .ended => ∃ before, m=c.quit before

variable [DecidableEq ι]

/-- A property of the history and the shared state that every allowed step
keeps, and with which the services give the replies relied on. -/
structure Upholds (c : Contract ρ A μ) (ready : μ → S → Prop) (services : Services σ ι ρ ε)
    (G : List (Label ι ρ A ε) → σ → Prop) : Prop where
  opened : ∀ past i s t, G past s → services.opens i s t → G (.session i .opened::past) t
  arrive : ∀ past i request s waiting, G past s → ready (c.follow (own i past)) waiting →
    G (.session i (.arrive request)::past) s
  call : ∀ past i op s reply t, G past s → c.mayCall (c.follow (own i past)) op →
    services.calls i op s reply t →
    c.answers (c.follow (own i past)) op reply ∧ G (.session i (.call op reply)::past) t
  finish : ∀ past i s, G past s → G (.session i .finish::past) s
  closed : ∀ past i s t, G past s → services.closes i s t → G (.session i .closed::past) t
  dropped : ∀ past i s t, G past s → services.closes i s t → G (.session i .dropped::past) t
  environment : ∀ past e s t, G past s → services.environment e s t → G (.environment e::past) t

variable {services : Services σ ι ρ ε} {first : S} {handler : S → A → Program ρ (Option S)}
variable {ready : μ → S → Prop} {G : List (Label ι ρ A ε) → σ → Prop} {init host : Host σ ι ρ S}
variable {history : List (Label ι ρ A ε)}

@[simp] theorem own_session (i : ι) (e : Event ρ A) (past : List (Label ι ρ A ε)) :
    own i (.session i e::past)=e::own i past := if_pos rfl

theorem own_session_of_ne {i j : ι} (h : j≠i) (e : Event ρ A) (past : List (Label ι ρ A ε)) :
    own i (.session j e::past)=own i past := if_neg h

theorem own_append (i : ι) (newer older : List (Label ι ρ A ε)) :
    own i (newer++older)=own i newer++own i older := by
  induction newer with
  | nil => rfl
  | cons label newer ih =>
    cases label with
    | environment e => exact ih
    | session j e =>
      rw [List.cons_append,own,own]
      split
      · rw [ih,List.cons_append]
      · exact ih

theorem inner_append (i : ι) (newer older : List (Label ι ρ A ε)) :
    inner i (newer++older)=inner i newer++inner i older := by
  rw [inner,own_append,List.filter_append]
  rfl

/-- Requests and calls stay in a history. -/
theorem inner_subset (i : ι) (label : Label ι ρ A ε) (past : List (Label ι ρ A ε)) :
    inner i past⊆inner i (label::past) := by
  rw [←List.singleton_append,inner_append]
  exact List.subset_append_right _ _

/-- A handler that meets its contract for every request. -/
def Handles (c : Contract ρ A μ) (ready : μ → S → Prop)
    (handler : S → A → Program ρ (Option S)) : Prop :=
  ∀ m s request, ready m s → Meets c (fun m result => ∀ s, result=some s → ready m s)
    (c.arrive m request) (handler s request)

/-- A step of one session keeps what holds of the others and their memories. -/
theorem inPhase_update {phases : ι → Phase ρ S} {past : List (Label ι ρ A ε)} {i : ι}
    {e : Event ρ A} {phase : Phase ρ S}
    (h : ∀ j, InPhase c ready (c.follow (own j past)) (phases j))
    (hi : InPhase c ready (c.observe (c.follow (own i past)) e) phase) (j : ι) :
    InPhase c ready (c.follow (own j (.session i e::past))) (Function.update phases i phase j) := by
  by_cases hj : j=i
  · subst hj
    rw [Function.update_self,own_session]
    exact hi
  · rw [Function.update_of_ne hj,own_session_of_ne (Ne.symm hj)]
    exact h j

/-- In every run the sessions keep to the contract and the shared state has
the property. -/
theorem upheld (hready : ready c.start first) (hhandler : Handles c ready handler)
    (hG : Upholds c ready services G) (hinit : G [] init.shared)
    (hunopened : ∀ i, init.phases i=.unopened)
    (run : Run (Step services first handler) init history host) :
    G history host.shared ∧ ∀ i, InPhase c ready (c.follow (own i history)) (host.phases i) := by
  refine run.invariant (I := fun history host => G history host.shared ∧
    ∀ i, InPhase c ready (c.follow (own i history)) (host.phases i)) ⟨hinit,?_⟩ ?_
  · intro i
    rw [hunopened i]
    rfl
  · intro past s label t _ ⟨hshared,hphases⟩ taken
    cases taken with
    | @opened i t phase effect =>
      have hi := hphases i
      rw [phase] at hi
      have hfirst : ready (c.follow (own i past)) first := by
        have hstart : c.follow (own i past)=c.start := hi
        rw [hstart]
        exact hready
      exact ⟨hG.opened _ _ _ _ hshared effect,inPhase_update hphases hfirst⟩
    | @arrive i _ request phase =>
      have hi := hphases i
      rw [phase] at hi
      exact ⟨hG.arrive _ _ _ _ _ hshared hi,inPhase_update hphases (hhandler _ _ _ hi)⟩
    | @call i op next reply t phase effect =>
      have hi := hphases i
      rw [phase] at hi
      obtain ⟨hanswers,hshared⟩ := hG.call _ _ _ _ _ _ hshared hi.1 effect
      exact ⟨hshared,inPhase_update hphases (hi.2 reply hanswers)⟩
    | @finish i _ phase =>
      have hi := hphases i
      rw [phase] at hi
      exact ⟨hG.finish _ _ _ hshared,inPhase_update hphases (hi _ rfl)⟩
    | closed phase effect =>
      exact ⟨hG.closed _ _ _ _ hshared effect,inPhase_update hphases ⟨_,rfl⟩⟩
    | dropped phase effect =>
      exact ⟨hG.dropped _ _ _ _ hshared effect,inPhase_update hphases ⟨_,rfl⟩⟩
    | environment effect => exact ⟨hG.environment _ _ _ _ hshared effect,hphases⟩

/-- Every call in a run was allowed when it was made, its reply could be relied
on, and the property held right before it. -/
theorem call_upheld (hready : ready c.start first) (hhandler : Handles c ready handler)
    (hG : Upholds c ready services G) (hinit : G [] init.shared)
    (hunopened : ∀ i, init.phases i=.unopened) {newer older : List (Label ι ρ A ε)} {i : ι}
    {op : κ} {reply : ρ op}
    (run : Run (Step services first handler) init
      (newer++.session i (.call op reply)::older) host) :
    c.mayCall (c.follow (own i older)) op ∧ c.answers (c.follow (own i older)) op reply := by
  obtain ⟨mid,hrun,-⟩ := run.split
  cases hrun with
  | next _ hrun taken =>
    obtain ⟨hshared,hphases⟩ := upheld hready hhandler hG hinit hunopened hrun
    cases taken with
    | call phase effect =>
      have hi := hphases i
      rw [phase] at hi
      exact ⟨hi.1,(hG.call _ _ _ _ _ _ hshared hi.1 effect).1⟩

/-- Nothing is asked of the shared state. -/
theorem Upholds.trivial (hanswers : ∀ m op reply, c.answers m op reply) :
    Upholds c ready services fun _ _ => True where
  opened _ _ _ _ _ _ := True.intro
  arrive _ _ _ _ _ _ _ := True.intro
  call _ _ _ _ _ _ _ _ _ := ⟨hanswers _ _ _,True.intro⟩
  finish _ _ _ _ := True.intro
  closed _ _ _ _ _ _ := True.intro
  dropped _ _ _ _ _ _ := True.intro
  environment _ _ _ _ _ _ := True.intro

end

end

section

open Relation (ReflTransGen)

variable {σ φ α : Type} (calls : (op : κ) → σ → ρ op → σ → Prop) (view : σ → φ → α → Prop)
variable (step : α → α → Prop)

/-- Whatever the calls of a program do to the shared state is done by steps of
another system, in states that the view relates to the shared state and to how
far the program has come. Between two calls both states may change, as long as
the view still relates them. -/
def Follows (post : φ → β → Prop) : φ → Program ρ β → Prop
  | l, .done b => post l b
  | l, .call op next => ∀ s reply t a, calls op s reply t → view s l a →
      ∃ l' a', ReflTransGen step a a' ∧ view t l' a' ∧ Follows post l' (next reply)

variable {calls view step} {post : φ → β → Prop} {l : φ}

/-- The rule of two programs one after the other. -/
theorem Follows.bind {mid : φ → β → Prop} {post : φ → γ → Prop} {prog : Program ρ β}
    {f : β → Program ρ γ} (hfirst : Follows calls view step mid l prog)
    (hnext : ∀ l b, mid l b → Follows calls view step post l (f b)) :
    Follows calls view step post l (prog >>= f) := by
  induction prog generalizing l with
  | done b => exact hnext l b hfirst
  | call op next ih =>
    intro s reply t a hcall ha
    obtain ⟨l',a',hsteps,ha',h⟩ := hfirst s reply t a hcall ha
    exact ⟨l',a',hsteps,ha',ih reply h⟩

/-- A call of a session that follows another system is steps of that system, and
the rest of its program follows it too. -/
theorem Follows.next {ι A ε S : Type} [DecidableEq ι] {services : Services σ ι ρ ε} {first : S}
    {handler : S → A → Program ρ (Option S)} {host host' : Host σ ι ρ S} {i : ι} {op : κ}
    {reply : ρ op} {prog : Program ρ (Option S)} {post : φ → Option S → Prop} {a : α}
    (h : Follows calls view step post l prog) (hphase : host.phases i=.handling prog)
    (ha : view host.shared l a)
    (hcalls : services.calls i op host.shared reply host'.shared →
      calls op host.shared reply host'.shared)
    (taken : Step services first handler host (.session i (.call op reply)) host') :
    ∃ prog' l' a', host'.phases i=.handling prog' ∧ ReflTransGen step a a' ∧
      view host'.shared l' a' ∧ Follows calls view step post l' prog' := by
  cases taken with
  | call phase effect =>
    obtain rfl : prog=_ := Phase.handling.inj (hphase.symm.trans phase)
    obtain ⟨l',a',hsteps,ha',hrest⟩ := h _ _ _ _ (hcalls effect) ha
    exact ⟨_,l',a',Function.update_self _ _ _,hsteps,ha',hrest⟩

end

end

section

variable {κ κ' : Type} {ρ : κ → Type} {ρ' : κ' → Type} {A μ ε β γ : Type}

/-- A program that gives a result or stops with a reason. -/
abbrev Fallible (ρ : κ → Type) (ε β : Type) := ExceptT ε (Program ρ) β

/-- A call whose reply is the result. -/
def ask (op : κ) : Fallible ρ ε (ρ op) := ExceptT.lift (Program.perform op)

/-- Stop with the reason of a failure. -/
def orStop (result : Except ε β) : Fallible ρ ε β := ExceptT.mk (pure result)

/-- A program for few services as one for more. -/
def translate (f : κ → κ') (back : ∀ op, ρ' (f op) → ρ op) : Program ρ β → Program ρ' β
  | .done b => .done b
  | .call op next => .call (f op) fun reply => translate f back (next (back op reply))

/-- A program makes only calls it may make, and leaves a property of the memory
and its result, or another one of the memory and its reason. -/
def Ensures (c : Contract ρ A μ) (post : μ → β → Prop) (stop : μ → ε → Prop) (m : μ)
    (prog : Fallible ρ ε β) : Prop :=
  Meets c (fun m result => match result with
    | .ok b => post m b
    | .error e => stop m e) m prog.run

variable {c : Contract ρ A μ} {post : μ → β → Prop} {stop : μ → ε → Prop} {m : μ}

/-- The rule of a result. -/
theorem Ensures.result {b : β} (h : post m b) : Ensures c post stop m (pure b) := h

/-- The rule of a reason to stop. -/
theorem Ensures.halt {e : ε} (h : stop m e) :
    Ensures c post stop m (throw e : Fallible ρ ε β) := h

/-- The rule of a call. -/
theorem Ensures.call {op : κ} {f : ρ op → Fallible ρ ε β} (hmay : c.mayCall m op)
    (hnext : ∀ reply, c.answers m op reply → Ensures c post stop (c.called m op reply) (f reply)) :
    Ensures c post stop m (ask op >>= f) := ⟨hmay,hnext⟩

/-- The rule of a failure that stops the program. -/
theorem Ensures.check {result : Except ε γ} {f : γ → Fallible ρ ε β}
    (hstop : ∀ e, result=.error e → stop m e)
    (hnext : ∀ b, result=.ok b → Ensures c post stop m (f b)) :
    Ensures c post stop m (orStop result >>= f) := by
  cases result with
  | error e => exact hstop e rfl
  | ok b => exact hnext b rfl

/-- The rule of two programs one after the other. -/
theorem Ensures.bind {mid : μ → γ → Prop} {prog : Fallible ρ ε γ} {f : γ → Fallible ρ ε β}
    (hfirst : Ensures c mid stop m prog) (hnext : ∀ m b, mid m b → Ensures c post stop m (f b)) :
    Ensures c post stop m (prog >>= f) := by
  have hrun : Meets c _ m prog.run := hfirst
  refine hrun.bind fun m result h => ?_
  cases result with
  | ok b => exact hnext m b h
  | error e => exact h

end

end TokiSync.InterleavedSessions
