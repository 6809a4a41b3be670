/-!
# Statements about actions

What an action on a state is shown to ensure: a statement about its result and the state it
leaves. A sequence of actions is taken apart at the states in between, and a loop over a
list by what holds while the rest of the list is still to be done.
-/

namespace PresenceTracker

variable {σ α β : Type}

/-- A statement holds of the result of an action that starts in `state`, and of the state
it leaves. -/
def Ensures (action : StateM σ α) (state : σ) (claim : α → σ → Prop) : Prop :=
  claim (action.run state).1 (action.run state).2

/-- An action gives the result and leaves the state that running it gives. -/
theorem ensures_run (action : StateM σ α) (state : σ) :
    Ensures action state fun value later => action.run state = (value, later) := rfl

/-- An action that gives a value leaves the state as it is. -/
theorem ensures_pure {state : σ} {value : α} {claim : α → σ → Prop} (h : claim value state) :
    Ensures (pure value) state claim := h

/-- What follows a look at the state starts in that state and may depend on it. -/
theorem ensures_get_bind {state : σ} {next : σ → StateM σ β} {claim : β → σ → Prop}
    (h : Ensures (next state) state claim) : Ensures (get >>= next) state claim := h

/-- A change of the state leaves the changed state. -/
theorem ensures_modify {state : σ} {change : σ → σ} {claim : PUnit → σ → Prop}
    (h : claim ⟨⟩ (change state)) : Ensures (modify change) state claim := h

namespace Ensures

variable {state : σ} {action : StateM σ α} {claim : α → σ → Prop}

/-- Of two actions in sequence the second starts in the state that the first leaves. -/
theorem bind {next : α → StateM σ β} {between : α → σ → Prop} {claim : β → σ → Prop}
    (hfirst : Ensures action state between)
    (hnext : ∀ value later, between value later → Ensures (next value) later claim) :
    Ensures (action >>= next) state claim := hnext _ _ hfirst

/-- After what an action ensures, two ways to go on that run alike there make sequences that run
alike. -/
theorem run_bind_congr {next next' : α → StateM σ β} {between : α → σ → Prop}
    (hfirst : Ensures action state between)
    (hnext : ∀ value later, between value later →
      (next value).run later = (next' value).run later) :
    (action >>= next).run state = (action >>= next').run state := hnext _ _ hfirst

/-- Two statements that are ensured are ensured together. -/
theorem and {other : α → σ → Prop} (h : Ensures action state claim)
    (h' : Ensures action state other) :
    Ensures action state fun value later => claim value later ∧ other value later := ⟨h, h'⟩

/-- What follows from an ensured statement is ensured too. -/
theorem mono {weaker : α → σ → Prop} (h : Ensures action state claim)
    (himp : ∀ value later, claim value later → weaker value later) :
    Ensures action state weaker := himp _ _ h

end Ensures

/-- What a result gives if it is a success is the value of the success. -/
theorem of_eq_ok {ε : Type} {holds : α → Prop} {value : α} (h : holds value) :
    ∀ given, (Except.ok value : Except ε α) = .ok given → holds given := by
  intro given hgiven
  cases hgiven
  exact h

/-- A loop over a list ensures in the end what every round passes on to the rest. -/
theorem ensures_forM {action : α → StateM σ PUnit} (inv : List α → σ → Prop)
    (hround : ∀ item rest state, inv (item :: rest) state →
      Ensures (action item) state fun _ later => inv rest later) {items : List α} {state : σ}
    (h : inv items state) : Ensures (items.forM action) state fun _ later => inv [] later := by
  induction items generalizing state with
  | nil => exact h
  | cons item rest ih => exact (hround item rest state h).bind fun _ later hlater => ih hlater

/-- A loop that carries a value ensures in the end what every round passes on to the rest. -/
theorem ensures_foldlM {action : β → α → StateM σ β} (inv : List α → β → σ → Prop)
    (hround : ∀ value item rest state, inv (item :: rest) value state →
      Ensures (action value item) state fun value later => inv rest value later)
    {items : List α} {value : β} {state : σ} (h : inv items value state) :
    Ensures (items.foldlM action value) state fun value later => inv [] value later := by
  induction items generalizing value state with
  | nil => exact h
  | cons item rest ih =>
    rw [List.foldlM_cons]
    exact (hround value item rest state h).bind fun _ later hlater => ih hlater

end PresenceTracker
