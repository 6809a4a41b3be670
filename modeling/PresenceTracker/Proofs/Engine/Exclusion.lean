import PresenceTracker.Proofs.Engine.SlotMap

/-!
# Taking turns on a user

Of the tasks of a node no two are ever at work on the same user. What is forgotten when a
guard is dropped, or after a sweep, takes the turn from nobody. The removal of a user does:
it forgets the slot whoever waits for it, and the tasks that come afterwards take turns at
another slot than those that wait; and the guard that it drops then may forget a newer slot
that somebody else is at work at. With both left out the tasks exclude each other.
-/

namespace PresenceTracker.SlotMap

section Turns

variable {ι : Type} {map : SlotMap ι}

/-- No two tasks are at work on the same user. -/
def Exclusive (map : SlotMap ι) : Prop :=
  ∀ task other user slot share, map.stage task = .working user slot →
    map.stage other = .working user share → task = other

/-- Tasks take turns at the slots that the map has. -/
structure Ordered (map : SlotMap ι) : Prop where
  /-- Who waits for a turn on a user, or has it, shares the slot that the map has for the
  user. -/
  mapped : ∀ task user slot, (map.stage task).Claims user slot → map.mapped[user]? = some slot
  /-- A lock is held by one task at most. -/
  alone : ∀ task other slot, (map.stage task).lock? = some slot →
    (map.stage other).lock? = some slot → task = other

namespace Ordered

/-- Where nobody is at work tasks take turns. -/
theorem of_idle (hidle : ∀ task, map.stage task = .idle) : map.Ordered := by
  refine ⟨fun task user slot hclaims => ?_, fun task other slot hlock => ?_⟩
  · rw [hidle] at hclaims
    rcases hclaims with heq | heq <;> cases heq
  · rw [hidle] at hlock
    cases hlock

/-- Tasks that take turns exclude each other. -/
theorem exclusive (h : map.Ordered) : map.Exclusive := by
  intro task other user slot share htask hother
  have hmapped : map.mapped[user]? = some slot := h.mapped task user slot (.inr htask)
  have hshare : map.mapped[user]? = some share := h.mapped other user share (.inr hother)
  have hsame : slot = share := by
    rw [hmapped] at hshare
    exact Option.some.inj hshare
  subst hsame
  exact h.alone task other slot (by rw [htask]; rfl) (by rw [hother]; rfl)

/-- A lock is held by one task at most if each that is held was held before. -/
theorem alone_of_held {later : SlotMap ι} (h : map.Ordered)
    (hheld : ∀ task slot, (later.stage task).lock? = some slot →
      (map.stage task).lock? = some slot) (task other : ι) (slot : Nat)
    (htask : (later.stage task).lock? = some slot)
    (hother : (later.stage other).lock? = some slot) : task = other :=
  h.alone task other slot (hheld _ _ htask) (hheld _ _ hother)

end Ordered

end Turns

section Owners

variable {ι : Type} [Fintype ι] {map : SlotMap ι} {task : ι}

/-- The guard of a task at work is that of the slot that the map has, and the map does not
forget it while others share it. -/
theorem Ordered.sole_of_dropForgets (h : map.Ordered) {user : String} {own : Nat}
    {now interval : Moment} (hstage : map.stage task = .working user own)
    (hforgets : map.dropForgets user own now interval) (other : ι) (slot : Nat)
    (hclaims : (map.stage other).Claims user slot) : other = task := by
  have hown : map.mapped[user]? = some own := h.mapped task user own (.inr hstage)
  have hslot : map.mapped[user]? = some slot := h.mapped other user slot hclaims
  rw [dropForgets, hown, Option.any_some, Bool.and_eq_true, beq_iff_eq] at hforgets
  rw [hslot] at hown
  cases hown
  exact eq_of_owners_eq_two hforgets.1 (by rw [hstage]; rfl) hclaims.slot?

end Owners

section Moves

variable {ι : Type} [DecidableEq ι] {map : SlotMap ι} {task other : ι}

/-- A task that moves to a stage without a lock takes no lock from anybody. -/
theorem held_of_move {stage : Stage} (hstage : stage.lock? = none) (one : ι) (slot : Nat)
    (hlock : ((map.move task stage).stage one).lock? = some slot) :
    (map.stage one).lock? = some slot := by
  rw [stage_move] at hlock
  split at hlock
  · rw [hstage] at hlock
    cases hlock
  · exact hlock

/-- Where a task moves away from every user, the claims are those of other tasks. -/
theorem claims_of_move {stage : Stage} {user : String} {slot : Nat} {one : ι}
    (hstage : ∀ user slot, ¬stage.Claims user slot)
    (hclaims : ((map.move task stage).stage one).Claims user slot) :
    one ≠ task ∧ (map.stage one).Claims user slot := by
  rw [stage_move] at hclaims
  split at hclaims
  · exact absurd hclaims (hstage user slot)
  · next hone => exact ⟨hone, hclaims⟩

/-- A task that leaves after another one has moved, but not to leave, left before. -/
theorem leaving_of_moved {later : SlotMap ι} {stage : Stage} {user : String} {own : Nat}
    (hmoved : later.stage = Function.update map.stage other stage)
    (hstage : stage ≠ .leaving user own) (hleaving : later.stage task = .leaving user own) :
    map.stage task = .leaving user own := by
  rw [hmoved, Function.update_apply] at hleaving
  split at hleaving
  · exact absurd hleaving hstage
  · exact hleaving

theorem not_claims_idle (user : String) (slot : Nat) : ¬Stage.idle.Claims user slot := by
  simp [Stage.Claims]

theorem not_claims_leaving (left : String) (own : Nat) (user : String) (slot : Nat) :
    ¬(Stage.leaving left own).Claims user slot := by
  simp [Stage.Claims]

/-- A task that takes a share of a slot waits for its turn. -/
theorem Ordered.enter (h : map.Ordered) (task : ι) (user : String) :
    (map.enter task user).Ordered := by
  unfold SlotMap.enter
  split
  · next slot hslot =>
    refine ⟨fun one wanted share hclaims => ?_, h.alone_of_held (held_of_move rfl)⟩
    rw [stage_move] at hclaims
    split at hclaims
    · rcases hclaims with heq | heq <;> cases heq
      exact hslot
    · exact h.mapped one wanted share hclaims
  · next hnone =>
    refine ⟨fun one wanted share hclaims => ?_, h.alone_of_held (held_of_move rfl)⟩
    have hmoved : ((map.move task (.awaiting user map.made)).stage one).Claims wanted share :=
      hclaims
    rw [Table.get?_insert]
    rw [stage_move] at hmoved
    split at hmoved
    · rcases hmoved with heq | heq <;> cases heq
      exact if_pos rfl
    · have hmapped := h.mapped one wanted share hmoved
      have hne : user ≠ wanted := by
        rintro rfl
        rw [hnone] at hmapped
        cases hmapped
      rw [if_neg hne, hmapped]

end Moves

section Steps

variable {ι : Type} [Fintype ι] [DecidableEq ι]

/-- Whether forgetting takes the turn from nobody: a removal forgets a slot that no other task
shares, and the guard that it drops afterwards forgets nothing more. -/
def spares (map : SlotMap ι) : SlotStep ι → Bool
  | .forget task => ∀ other, (map.stage other).slot? = (map.stage task).slot? → other = task
  | .drop task now interval =>
    match map.stage task with
    | .leaving user own => !map.dropForgets user own now interval
    | _ => true
  | _ => true

/-- Steps that can be taken and take the turn from nobody. -/
def careful (map : SlotMap ι) (step : SlotStep ι) : Bool := map.allows step && map.spares step

/-- Steps that can be taken and remove no user. -/
def keeping (map : SlotMap ι) (step : SlotStep ι) : Bool := map.allows step && !step.removes

variable {map : SlotMap ι} {task : ι}

namespace Ordered

/-- A free lock goes to one task. -/
theorem acquire (h : map.Ordered) (hallows : map.allows (.acquire task)) :
    (map.step (.acquire task)).Ordered := by
  obtain ⟨user, slot, hstage, hfree⟩ := acquire_allowed hallows
  have hlock : ∀ one share, ((map.move task (.working user slot)).stage one).lock? = some share →
      (one = task ∧ share = slot) ∨ (map.stage one).lock? = some share := by
    intro one share hlock
    rw [stage_move] at hlock
    split at hlock
    · next hone => cases hlock; exact .inl ⟨hone, rfl⟩
    · exact .inr hlock
  simp only [SlotMap.step, hstage]
  refine ⟨fun one wanted share hclaims => ?_, fun one other share hone hother => ?_⟩
  · rw [stage_move] at hclaims
    split at hclaims
    · rcases hclaims with heq | heq <;> cases heq
      exact h.mapped task user slot (.inl hstage)
    · exact h.mapped one wanted share hclaims
  · rcases hlock one share hone with ⟨hone, hshare⟩ | hone <;>
      rcases hlock other share hother with ⟨hother, hshare'⟩ | hother
    · rw [hone, hother]
    · exact absurd (hshare ▸ hother) (hfree other)
    · exact absurd (hshare' ▸ hone) (hfree one)
    · exact h.alone one other share hone hother

/-- A removal that forgets a slot which nobody else shares takes the turn from nobody. -/
theorem forget (h : map.Ordered) (hallows : map.allows (.forget task))
    (hspares : map.spares (.forget task)) : (map.step (.forget task)).Ordered := by
  obtain ⟨user, slot, hstage⟩ := forget_allowed hallows
  have hsole := of_decide_eq_true hspares
  simp only [SlotMap.step, hstage]
  refine ⟨fun one wanted share hclaims => ?_, h.alone_of_held fun one share hlock => ?_⟩
  · obtain ⟨hone, hclaims⟩ := claims_of_move (not_claims_leaving user slot) hclaims
    have hmapped := h.mapped one wanted share hclaims
    rw [Table.get?_erase, if_neg, hmapped]
    -- Whoever else claims the user shares the slot that is forgotten.
    rintro rfl
    have hown : map.mapped[user]? = some slot := h.mapped task user slot (.inr hstage)
    rw [hmapped] at hown
    cases hown
    exact hone (hsole one (by rw [hclaims.slot?, hstage]; rfl))
  · have hmoved : ((map.move task (.leaving user slot)).stage one).lock? = some share := hlock
    rw [stage_move] at hmoved
    split at hmoved
    · next hone => rw [hone, hstage]; exact hmoved
    · exact hmoved

/-- A guard that is dropped takes the turn from nobody if it forgets no slot, or one that only
its own task shares. -/
theorem dropGuard (h : map.Ordered) {user : String} {own : Nat} {now interval : Moment}
    (hsole : map.dropForgets user own now interval →
      ∀ other slot, (map.stage other).Claims user slot → other = task) :
    (map.dropGuard task user own now interval).Ordered := by
  refine ⟨fun one wanted share hclaims => ?_, h.alone_of_held (held_of_move rfl)⟩
  obtain ⟨hone, hclaims⟩ := claims_of_move not_claims_idle hclaims
  have hmapped := h.mapped one wanted share hclaims
  rw [SlotMap.dropGuard]
  split
  · next hforgets =>
    rw [Table.get?_erase, if_neg, hmapped]
    rintro rfl
    exact hone (hsole hforgets one share hclaims)
  · exact hmapped

/-- A guard that is dropped takes the turn from nobody. -/
theorem drop (h : map.Ordered) {now interval : Moment}
    (hspares : map.spares (.drop task now interval)) :
    (map.step (.drop task now interval)).Ordered := by
  cases hstage : map.stage task with
  | idle => simpa only [SlotMap.step, hstage] using h
  | awaiting user slot => simpa only [SlotMap.step, hstage] using h
  | working user own =>
    simp only [SlotMap.step, hstage]
    exact h.dropGuard (h.sole_of_dropForgets hstage)
  | leaving user own =>
    simp only [SlotMap.step, hstage]
    simp only [spares, hstage, Bool.not_eq_true'] at hspares
    refine h.dropGuard fun hforgets => ?_
    rw [hspares] at hforgets
    cases hforgets

/-- The slots that are forgotten after a sweep are shared by nobody. -/
theorem prune (h : map.Ordered) (now interval : Moment) :
    (map.step (.prune now interval)).Ordered := by
  refine ⟨fun one wanted share hclaims => ?_, h.alone⟩
  have hmapped : map.mapped[wanted]? = some share := h.mapped one wanted share hclaims
  have hshared : 1 < map.owners share := one_lt_owners hclaims.slot?
  simp only [SlotMap.step]
  rw [Table.get?_filter, hmapped, Option.filter_some, survives, decide_eq_true hshared,
    Bool.true_or, if_pos rfl]

/-- Tasks go on taking turns as long as no removal takes the turn from somebody. -/
theorem step (h : map.Ordered) {next : SlotStep ι} (hcareful : map.careful next) :
    (map.step next).Ordered := by
  rw [careful, Bool.and_eq_true] at hcareful
  obtain ⟨hallows, hspares⟩ := hcareful
  cases next with
  | enter task user => exact h.enter task user
  | acquire task => exact h.acquire hallows
  | giveUp task =>
    refine ⟨fun one wanted share hclaims => ?_, h.alone_of_held (held_of_move rfl)⟩
    exact h.mapped one wanted share (claims_of_move not_claims_idle hclaims).2
  | note task moment =>
    simp only [SlotMap.step]
    split
    · exact ⟨h.mapped, h.alone⟩
    · exact h
  | forget task => exact h.forget hallows hspares
  | drop task now interval => exact h.drop hspares
  | prune now interval => exact h.prune now interval

end Ordered

/-- Tasks take turns during every careful run. -/
theorem Ordered.of_careful {start map : SlotMap ι} (hidle : ∀ task, start.stage task = .idle)
    (hreaches : Reaches careful start map) : map.Ordered := by
  induction hreaches with
  | start => exact .of_idle hidle
  | step next _ hcareful ih => exact ih.step hcareful

/-- Only a removal leaves. -/
theorem leaving_step {next : SlotStep ι} {user : String} {own : Nat}
    (hleaving : (map.step next).stage task = .leaving user own) :
    next = .forget task ∨ map.stage task = .leaving user own := by
  cases next with
  | enter other wanted =>
    simp only [step, enter] at hleaving
    split at hleaving <;> exact .inr (leaving_of_moved rfl (by nofun) hleaving)
  | acquire other =>
    simp only [step] at hleaving
    split at hleaving
    · exact .inr (leaving_of_moved rfl (by nofun) hleaving)
    · exact .inr hleaving
  | giveUp other => exact .inr (leaving_of_moved rfl (by nofun) hleaving)
  | note other moment =>
    simp only [step] at hleaving
    split at hleaving <;> exact .inr hleaving
  | forget other =>
    simp only [step] at hleaving
    split at hleaving
    · by_cases hsame : task = other
      · exact .inl (hsame ▸ rfl)
      · exact .inr ((Function.update_of_ne hsame _ map.stage).symm.trans hleaving)
    · exact .inr hleaving
  | drop other now interval =>
    simp only [step] at hleaving
    split at hleaving
    · exact .inr (leaving_of_moved rfl (by nofun) hleaving)
    · exact .inr (leaving_of_moved rfl (by nofun) hleaving)
    · exact .inr hleaving
  | prune now interval => exact .inr hleaving

/-- Without removals every run is careful, and no task ever leaves. -/
theorem Reaches.careful_of_keeping {start map : SlotMap ι}
    (hidle : ∀ task, start.stage task = .idle) (hreaches : Reaches keeping start map) :
    Reaches careful start map ∧ ∀ task user own, map.stage task ≠ .leaving user own := by
  induction hreaches with
  | start =>
    refine ⟨.start, fun task user own hleaving => ?_⟩
    rw [hidle] at hleaving
    cases hleaving
  | @step map next _ hkeeping ih =>
    obtain ⟨hbefore, hstays⟩ := ih
    rw [keeping, Bool.and_eq_true] at hkeeping
    have hspares : map.spares next := by
      cases next with
      | forget task => cases hkeeping.2
      | drop task now interval =>
        simp only [spares]
        split
        · next user own hleaving => exact absurd hleaving (hstays task user own)
        · rfl
      | _ => rfl
    refine ⟨.step next hbefore ?_, fun task user own hleaving => ?_⟩
    · rw [careful, hkeeping.1, hspares, Bool.and_self]
    · rcases leaving_step hleaving with rfl | hleaving
      · cases hkeeping.2
      · exact hstays task user own hleaving

/-- As long as no user is removed no two tasks are ever at work on the same user. -/
theorem exclusive_of_keeping {start map : SlotMap ι} (hidle : ∀ task, start.stage task = .idle)
    (hreaches : Reaches keeping start map) : map.Exclusive :=
  (Ordered.of_careful hidle (hreaches.careful_of_keeping hidle).1).exclusive

/-- Of the tasks of a node no two are ever at work on the same user, whatever they do in which
order, unless a removal or its guard forgets a slot that somebody else shares. -/
theorem exclusive_of_careful {start map : SlotMap ι} (hidle : ∀ task, start.stage task = .idle)
    (hreaches : Reaches careful start map) : map.Exclusive :=
  (Ordered.of_careful hidle hreaches).exclusive

/-- Two tasks that wait for each other's slot, one that removes the user, and two that take a
new slot afterwards. -/
def relay : List (SlotStep (Fin 3)) :=
  [.enter 0 "ada", .acquire 0, .enter 1 "ada", .note 0 5000, .drop 0 5000 60000, .acquire 1,
    .drop 1 70000 60000, .prune 70000 60000, .enter 2 "ada", .acquire 2, .enter 0 "bob",
    .forget 2, .drop 2 70000 60000, .acquire 0, .enter 2 "ada", .acquire 2, .enter 1 "ada"]

/-- After a careful run with a removal one task is at work on the user, and it is the only
one while another one waits. -/
theorem exclusive_of_careful_after_relay :
    (relay.foldl step {}).stage 2 = .working "ada" 3 ∧
      (relay.foldl step {}).stage 1 = .awaiting "ada" 3 ∧
        ∀ other slot, (relay.foldl step {}).stage other = .working "ada" slot → other = 2 := by
  have hreaches : Reaches careful {} (relay.foldl step {}) :=
    Reaches.start.foldl (by decide +kernel)
  have hworking : (relay.foldl step {}).stage 2 = .working "ada" 3 := by decide +kernel
  refine ⟨hworking, by decide +kernel, fun other slot hother => ?_⟩
  exact exclusive_of_careful (fun _ => rfl) hreaches other 2 "ada" slot 3 hother hworking

/-- A task waits while the user is removed, and another one comes afterwards. -/
def overtaken : List (SlotStep (Fin 3)) :=
  [.enter 0 "ada", .acquire 0, .enter 1 "ada", .forget 0, .drop 0 5000 60000, .acquire 1,
    .enter 2 "ada", .acquire 2]

/-- Two tasks can be at work on the same user: while one of them waits the user is removed, and
the other one takes a new slot. -/
theorem two_at_work_after_removal :
    ¬∀ map : SlotMap (Fin 3), Reaches allows {} map → map.Exclusive := by
  intro hclaim
  have hreaches : Reaches allows {} (overtaken.foldl step {}) :=
    Reaches.start.foldl (by decide +kernel)
  have hfirst : (overtaken.foldl step {}).stage 1 = .working "ada" 0 := by decide +kernel
  have hsecond : (overtaken.foldl step {}).stage 2 = .working "ada" 1 := by decide +kernel
  exact absurd (hclaim _ hreaches 1 2 "ada" 0 1 hfirst hsecond) (by decide)

/-- The guard of a removal forgets a newer slot while a task is at work there, although the
removal itself took the turn from nobody. -/
theorem removal_guard_forgets_newer_slot :
    ∃ map : SlotMap (Fin 3), Reaches allows {} map ∧ map.stage 1 = .working "ada" 1 ∧
      map.stage 2 = .working "ada" 2 :=
  ⟨_, Reaches.start.foldl (show obeys allows {} [.enter 0 "ada", .acquire 0, .forget 0,
      .enter 1 "ada", .acquire 1, .drop 0 5000 60000, .enter 2 "ada", .acquire 2] from by
        decide +kernel),
    by decide +kernel, by decide +kernel⟩

end Steps

end PresenceTracker.SlotMap
