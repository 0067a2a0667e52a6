import TextArchive.Ingest.Event

/-!
Outcomes: what an activity logs, the state that it leaves, and its result or the failure that ended
it. The state counts also after a failure.
-/

set_option autoImplicit false
set_option relaxedAutoImplicit false

namespace TextArchive.Ingest

structure Outcome (σ α : Type) where
  events : List Event
  state : σ
  result : Except IngestError α

namespace Outcome

variable {σ τ α β : Type}

def still (state : σ) (result : Except IngestError α) : Outcome σ α :=
  ⟨[], state, result⟩

def failed (state : σ) (error : IngestError) : Outcome σ α :=
  still state (.error error)

/-- Put events before those of an outcome. -/
def after (o : Outcome σ α) (events : List Event) : Outcome σ α :=
  { o with events := events ++ o.events }

/-- Go on with an outcome if it is a success. -/
def andThen (o : Outcome σ α) (next : α → σ → Outcome σ β) : Outcome σ β :=
  match o with
  | ⟨events, state, .error e⟩ => ⟨events, state, .error e⟩
  | ⟨events, state, .ok a⟩ => (next a state).after events

/-- The same outcome seen as one of another state. -/
def mapState (o : Outcome σ α) (f : σ → τ) : Outcome τ α :=
  ⟨o.events, f o.state, o.result⟩

@[simp] theorem state_after (o : Outcome σ α) (events : List Event) :
    (o.after events).state = o.state := rfl

@[simp] theorem result_after (o : Outcome σ α) (events : List Event) :
    (o.after events).result = o.result := rfl

theorem andThen_after (o : Outcome σ α) (events : List Event) (next : α → σ → Outcome σ β) :
    (o.after events).andThen next = (o.andThen next).after events := by
  obtain ⟨own, state, result⟩ := o
  cases result with
  | error e => rfl
  | ok a => simp [after, andThen, List.append_assoc]

theorem andThen_error {o : Outcome σ α} {e : IngestError} (h : o.result = .error e)
    (next : α → σ → Outcome σ β) : o.andThen next = ⟨o.events, o.state, .error e⟩ := by
  obtain ⟨own, state, result⟩ := o
  subst h
  rfl

end Outcome

end TextArchive.Ingest
