import PresenceTracker.Proofs.Engine.Ensures
import PresenceTracker.Proofs.Engine.SlotMap

/-!
# Slots and the bookkeeping on writes

The operations of the engine keep one moment for each user, `Site.slots`, and run one after the
other. While one task at a time is at work, the slots that tasks share hold just these moments:
the turn of a task forgets its slot where the operation forgets the user, a removal forgets the
user, and a sweep forgets the same users in both.
-/

namespace PresenceTracker.SlotMap

section Bookkeeping

variable {ι : Type} {map later : SlotMap ι} {user : String}

/-- Every user has a slot of its own, and the next slot is a new one. -/
structure Distinct (map : SlotMap ι) : Prop where
  /-- The slots in the map were made. -/
  made : ∀ (user : String) (slot : Nat), map.mapped[user]? = some slot → slot < map.made
  /-- No two users have the same slot. -/
  apart : ∀ (user other : String) (slot : Nat), map.mapped[user]? = some slot →
    map.mapped[other]? = some slot → user = other

/-- The slots know of each user what the node's bookkeeping knows. -/
def Tracks (map : SlotMap ι) (site : Site) : Prop :=
  ∀ user : String, site.slots[user]? = map.mapped[user]?.bind map.written

/-- Slots stay distinct while the map loses some of them. -/
theorem Distinct.of_fewer (h : map.Distinct) (hmade : later.made = map.made)
    (hmapped : ∀ (user : String) (slot : Nat), later.mapped[user]? = some slot →
      map.mapped[user]? = some slot) : later.Distinct := by
  refine ⟨fun user slot hslot => ?_, fun user other slot huser hother => ?_⟩
  · rw [hmade]
    exact h.made user slot (hmapped user slot hslot)
  · exact h.apart user other slot (hmapped _ _ huser) (hmapped _ _ hother)

/-- Slots stay distinct while the map forgets a user. -/
theorem Distinct.of_erase (h : map.Distinct) (hmade : later.made = map.made)
    (hmapped : later.mapped = map.mapped.erase user) : later.Distinct := by
  refine h.of_fewer hmade fun other slot hslot => ?_
  rw [hmapped, Table.get?_erase] at hslot
  split at hslot
  · cases hslot
  · exact hslot

end Bookkeeping

section Lone

variable {ι : Type} [DecidableEq ι] {map : SlotMap ι}

/-- A slot that is made for a user is a new one. -/
theorem Distinct.enter (h : map.Distinct) (task : ι) (user : String) :
    (map.enter task user).Distinct := by
  unfold SlotMap.enter
  split
  · exact h.of_fewer rfl fun _ _ hslot => hslot
  · refine ⟨fun other slot hslot => ?_, fun one other slot hone hother => ?_⟩
    · rw [Table.get?_insert] at hslot
      split at hslot
      · cases hslot
        exact Nat.lt_succ_self map.made
      · exact Nat.lt_succ_of_lt (h.made other slot hslot)
    · rw [Table.get?_insert] at hone hother
      split at hone <;> split at hother
      · next hsame hsame' => rw [← hsame, ← hsame']
      · cases hone
        exact absurd (h.made other _ hother) (Nat.lt_irrefl _)
      · cases hother
        exact absurd (h.made one _ hone) (Nat.lt_irrefl _)
      · exact h.apart one other slot hone hother

/-- A task that takes a share of a slot, which may be a new one, changes nothing in the
bookkeeping. -/
theorem Tracks.enter {site : Site} (h : map.Tracks site) (hdistinct : map.Distinct) (task : ι)
    (user : String) : (map.enter task user).Tracks site := by
  unfold SlotMap.enter
  split
  · exact h
  · next hnone =>
    intro other
    rw [h other, Table.get?_insert]
    split
    · next hsame =>
      rw [← hsame, hnone, Option.bind_some]
      exact (Function.update_self map.made none map.written).symm
    · cases hslot : map.mapped[other]? with
      | none => rfl
      | some slot =>
        have hne : slot ≠ map.made := Nat.ne_of_lt (hdistinct.made other slot hslot)
        rw [Option.bind_some, Option.bind_some]
        exact (Function.update_of_ne hne none map.written).symm

variable [Fintype ι] {site : Site} {task : ι} {user : String} {own : Nat}

/-- Whatever a task does, slots stay distinct. -/
theorem Distinct.step (h : map.Distinct) (next : SlotStep ι) : (map.step next).Distinct := by
  cases next with
  | enter task user => exact h.enter task user
  | acquire task =>
    simp only [SlotMap.step]
    split <;> exact h.of_fewer rfl fun _ _ hslot => hslot
  | giveUp task => exact h.of_fewer rfl fun _ _ hslot => hslot
  | note task moment =>
    simp only [SlotMap.step]
    split <;> exact h.of_fewer rfl fun _ _ hslot => hslot
  | forget task =>
    simp only [SlotMap.step]
    split
    · exact h.of_erase rfl rfl
    · exact h
  | drop task now interval =>
    have hdropped : ∀ user own, (map.dropGuard task user own now interval).Distinct := by
      intro user own
      by_cases hforgets : map.dropForgets user own now interval
      · exact h.of_erase rfl (if_pos hforgets)
      · refine h.of_fewer rfl fun wanted slot hslot => ?_
        rw [dropGuard, if_neg hforgets] at hslot
        exact hslot
    simp only [SlotMap.step]
    split
    · exact hdropped _ _
    · exact hdropped _ _
    · exact h
  | prune now interval =>
    refine h.of_fewer rfl fun user slot hslot => ?_
    simp only [SlotMap.step] at hslot
    rw [Table.get?_filter] at hslot
    exact (Option.filter_eq_some_iff.mp hslot).1

/-- A task that drops its guard has a share of no slot. -/
theorem stage_drop (hlock : (map.stage task).lock? = some own) (now interval : Moment) :
    (map.step (.drop task now interval)).stage = Function.update map.stage task .idle := by
  cases hstage : map.stage task with
  | idle | awaiting _ _ => rw [hstage] at hlock; cases hlock
  | working _ _ | leaving _ _ =>
    simp only [SlotMap.step, hstage]
    rfl

namespace Tracks

/-- A task that notes a write in its slot does so in the bookkeeping. -/
theorem note (h : map.Tracks site) (hdistinct : map.Distinct)
    (hstage : map.stage task = .working user own) (hmapped : map.mapped[user]? = some own)
    (moment : Moment) :
    (map.step (.note task moment)).Tracks ((Engine.noteSwept user moment).run site).2 := by
  intro other
  simp only [SlotMap.step, hstage]
  change (site.slots.insert user moment)[other]? = _
  rw [Table.get?_insert]
  split
  · next hsame => rw [← hsame, hmapped, Option.bind_some, Function.update_self]
  · next hne =>
    rw [h other]
    cases hslot : map.mapped[other]? with
    | none => rfl
    | some slot =>
      have hother : slot ≠ own := by
        rintro rfl
        exact hne (hdistinct.apart user other slot hmapped hslot)
      rw [Option.bind_some, Option.bind_some, Function.update_of_ne hother]

/-- A removal that forgets its slot does so in the bookkeeping. -/
theorem forget (h : map.Tracks site) (hstage : map.stage task = .working user own) :
    (map.step (.forget task)).Tracks ((Engine.forget user).run site).2 := by
  intro other
  simp only [SlotMap.step, hstage]
  change (site.slots.erase user)[other]? = _
  rw [Table.get?_erase, Table.get?_erase]
  split
  · rfl
  · exact h other

/-- The guard that a lone task drops forgets the slot as the end of an operation forgets the
user. -/
theorem drop (h : map.Tracks site) (hstage : map.stage task = .working user own)
    (hmapped : map.mapped[user]? = some own)
    (hlone : ∀ other, other ≠ task → map.stage other = .idle) :
    (map.step (.drop task site.clock site.settings.minUpdateInterval)).Tracks
      ((Engine.release user).run site).2 := by
  have howners : map.owners own = 2 := by
    have htask : (map.stage task).slot? = some own := by
      rw [hstage]
      rfl
    refine owners_eq_two htask fun other hne => ?_
    rw [hlone other hne]
    exact nofun
  have hforgets : map.dropForgets user own site.clock site.settings.minUpdateInterval =
      !site.skipsWrite user := by
    rw [dropForgets, hmapped, Option.any_some, howners, Site.skipsWrite, h user, hmapped]
    rfl
  intro other
  simp only [SlotMap.step, hstage, dropGuard, hforgets]
  change (if site.skipsWrite user then site
    else { site with slots := site.slots.erase user }).slots[other]? = _
  cases site.skipsWrite user with
  | true => exact h other
  | false =>
    change (site.slots.erase user)[other]? = (map.mapped.erase user)[other]?.bind map.written
    rw [Table.get?_erase, Table.get?_erase]
    split
    · rfl
    · exact h other

/-- The guard that a removal drops forgets nothing more, as the end of the operation does. -/
theorem leave (h : map.Tracks site) (hstage : map.stage task = .leaving user own)
    (hnone : map.mapped[user]? = none) (now interval : Moment) :
    (map.step (.drop task now interval)).Tracks ((Engine.release user).run site).2 := by
  have hkeeps : map.dropForgets user own now interval = false := by
    rw [dropForgets, hnone, Option.any_none]
  have hunknown : site.slots[user]? = none := by rw [h user, hnone, Option.bind_none]
  have hskips : site.skipsWrite user = false := by
    rw [Site.skipsWrite, hunknown]
    rfl
  intro other
  simp only [SlotMap.step, hstage, dropGuard, hkeeps]
  change (if site.skipsWrite user then site
    else { site with slots := site.slots.erase user }).slots[other]? = _
  rw [hskips]
  change (site.slots.erase user)[other]? = map.mapped[other]?.bind map.written
  rw [Table.get?_erase, ← h other]
  split
  · next hsame => rw [← hsame, hunknown]
  · rfl

/-- The slots that are forgotten after a sweep, with nobody at work, are those of the users
that the bookkeeping forgets. -/
theorem prune (h : map.Tracks site) (hidle : ∀ task, map.stage task = .idle) (now : Moment) :
    (map.step (.prune now site.settings.minUpdateInterval)).Tracks
      ((Engine.pruneSlots now).run site).2 := by
  have hsurvives : ∀ slot, map.survives now site.settings.minUpdateInterval slot =
      coalesces (map.written slot) now site.settings.minUpdateInterval := by
    intro slot
    have howners : map.owners slot = 1 := owners_eq_one fun task => by
      rw [hidle]
      exact nofun
    rw [survives, howners]
    rfl
  intro user
  change (site.slots.filter fun _ moment =>
    coalesces (some moment) now site.settings.minUpdateInterval)[user]? = (map.mapped.filter
      fun _ slot => map.survives now site.settings.minUpdateInterval slot)[user]?.bind map.written
  rw [Table.get?_filter, Table.get?_filter, h user]
  cases map.mapped[user]? with
  | none => rfl
  | some slot =>
    rw [Option.bind_some, Option.filter_some, hsurvives]
    cases hwritten : map.written slot with
    | none => rfl
    | some moment =>
      rw [Option.filter_some]
      split
      · exact hwritten.symm
      · rfl

end Tracks

/-- Nobody is at work, and the slots hold what the bookkeeping holds. -/
structure Resting (map : SlotMap ι) (site : Site) : Prop where
  /-- No task has a share of a slot. -/
  idle : ∀ task, map.stage task = .idle
  /-- Every user has a slot of its own. -/
  distinct : map.Distinct
  /-- The slots know what the bookkeeping knows. -/
  tracks : map.Tracks site

/-- One task is at work, at the slot that the map has for the user, and the slots hold what the
bookkeeping holds. -/
structure Lone (map : SlotMap ι) (task : ι) (user : String) (own : Nat) (site : Site) : Prop where
  /-- The task is at work. -/
  stage : map.stage task = .working user own
  /-- The map has the slot for the user. -/
  mapped : map.mapped[user]? = some own
  /-- No other task has a share of a slot. -/
  others : ∀ other, other ≠ task → map.stage other = .idle
  /-- Every user has a slot of its own. -/
  distinct : map.Distinct
  /-- The slots know what the bookkeeping knows. -/
  tracks : map.Tracks site

/-- A task that takes a share of a slot which nobody else shares gets the lock. -/
theorem Resting.begins (h : map.Resting site) (task : ι) (user : String) :
    ∃ own, ((map.step (.enter task user)).step (.acquire task)).Lone task user own site := by
  obtain ⟨own, hstage, hmapped, hothers⟩ : ∃ own,
      (map.enter task user).stage task = .awaiting user own ∧
      (map.enter task user).mapped[user]? = some own ∧
      ∀ other, other ≠ task → (map.enter task user).stage other = .idle := by
    unfold SlotMap.enter
    split
    · next own hown =>
      exact ⟨own, Function.update_self .., hown, fun other hne =>
        (Function.update_of_ne hne ..).trans (h.idle other)⟩
    · exact ⟨map.made, Function.update_self .., (Table.get?_insert ..).trans (if_pos rfl),
        fun other hne => (Function.update_of_ne hne ..).trans (h.idle other)⟩
  have hentered : map.step (.enter task user) = map.enter task user := rfl
  have hacquired : (map.enter task user).step (.acquire task) =
      (map.enter task user).move task (.working user own) := by
    simp only [SlotMap.step, hstage]
  rw [hentered, hacquired]
  refine ⟨own, Function.update_self .., hmapped, fun other hne => ?_, ?_, ?_⟩
  · exact (Function.update_of_ne hne ..).trans (hothers other hne)
  · exact (h.distinct.enter task user).of_fewer rfl fun _ _ hslot => hslot
  · exact h.tracks.enter h.distinct task user

namespace Lone

/-- A task goes on after it has noted a write. -/
theorem note (h : map.Lone task user own site) (moment : Moment) :
    (map.step (.note task moment)).Lone task user own
      ((Engine.noteSwept user moment).run site).2 := by
  have hnoted : (map.step (.note task moment)).stage = map.stage ∧
      (map.step (.note task moment)).mapped = map.mapped := by
    simp only [SlotMap.step, h.stage, and_self]
  refine ⟨?_, ?_, fun other hne => ?_, h.distinct.step _, ?_⟩
  · rw [hnoted.1, h.stage]
  · rw [hnoted.2, h.mapped]
  · rw [hnoted.1, h.others other hne]
  · exact h.tracks.note h.distinct h.stage h.mapped moment

theorem noteAll (h : map.Lone task user own site) (moments : List Moment) :
    ((moments.map (.note task)).foldl SlotMap.step map).Lone task user own
      ((moments.forM (Engine.noteSwept user)).run site).2 := by
  induction moments generalizing map site with
  | nil => exact h
  | cons moment rest ih => exact ih (h.note moment)

/-- A task that drops its guard leaves nobody at work. -/
theorem drop (h : map.Lone task user own site) :
    (map.step (.drop task site.clock site.settings.minUpdateInterval)).Resting
      ((Engine.release user).run site).2 := by
  have hlock : (map.stage task).lock? = some own := by rw [h.stage, Stage.lock?]
  refine ⟨fun other => ?_, h.distinct.step _, h.tracks.drop h.stage h.mapped h.others⟩
  rw [stage_drop hlock, Function.update_apply]
  split
  · rfl
  · next hne => exact h.others other hne

/-- A removal that forgets its slot and drops its guard leaves nobody at work. -/
theorem leave (h : map.Lone task user own site) (now interval : Moment) :
    ((map.step (.forget task)).step (.drop task now interval)).Resting
      ((do Engine.forget user; Engine.release user : StateM Site Unit).run site).2 := by
  have hforgotten : (map.step (.forget task)).stage =
        Function.update map.stage task (.leaving user own) ∧
      (map.step (.forget task)).mapped = map.mapped.erase user := by
    simp only [SlotMap.step, h.stage, and_self]
  have hleaving : (map.step (.forget task)).stage task = .leaving user own := by
    rw [hforgotten.1]
    exact Function.update_self ..
  have hnone : (map.step (.forget task)).mapped[user]? = none := by
    rw [hforgotten.2, Table.get?_erase, if_pos rfl]
  refine ⟨fun other => ?_, (h.distinct.step _).step _,
    (h.tracks.forget h.stage).leave hleaving hnone now interval⟩
  have hlock : ((map.step (.forget task)).stage task).lock? = some own := by
    rw [hleaving, Stage.lock?]
  rw [stage_drop hlock, hforgotten.1, Function.update_apply, Function.update_apply]
  split
  · rfl
  · next hne => exact h.others other hne

end Lone

/-- The steps of a task that works on a user and writes the user at some moments. -/
def turn (task : ι) (user : String) (moments : List Moment) (now interval : Moment) :
    List (SlotStep ι) :=
  .enter task user :: .acquire task :: moments.map (.note task) ++ [.drop task now interval]

/-- The steps of a task that removes a user. -/
def removal (task : ι) (user : String) (now interval : Moment) : List (SlotStep ι) :=
  [.enter task user, .acquire task, .forget task, .drop task now interval]

namespace Resting

/-- After the turn of a task, with nobody else at work, the slots hold what the bookkeeping holds
after an operation with the same writes. -/
theorem turn (h : map.Resting site) (task : ι) (user : String) (moments : List Moment) :
    ((SlotMap.turn task user moments site.clock site.settings.minUpdateInterval).foldl
        SlotMap.step map).Resting
      ((do moments.forM (Engine.noteSwept user); Engine.release user :
        StateM Site Unit).run site).2 := by
  obtain ⟨own, hlone⟩ := h.begins task user
  have hnoted := hlone.noteAll moments
  have hsame : Ensures (moments.forM (Engine.noteSwept user)) site fun _ later =>
      later.clock = site.clock ∧ later.settings = site.settings := by
    refine ensures_forM (fun _ (later : Site) =>
      later.clock = site.clock ∧ later.settings = site.settings) ?_ ⟨rfl, rfl⟩
    intro moment rest later hsame
    exact ensures_modify hsame
  have hdropped := hnoted.drop
  rw [hsame.1, hsame.2] at hdropped
  rw [SlotMap.turn, List.cons_append, List.cons_append, List.foldl_cons, List.foldl_cons,
    List.foldl_append]
  exact hdropped

/-- After a removal, with nobody else at work, the slots hold what the bookkeeping holds after the
operation. -/
theorem removal (h : map.Resting site) (task : ι) (user : String) (now interval : Moment) :
    ((SlotMap.removal task user now interval).foldl SlotMap.step map).Resting
      ((do Engine.forget user; Engine.release user : StateM Site Unit).run site).2 := by
  obtain ⟨own, hlone⟩ := h.begins task user
  exact hlone.leave now interval

/-- After a sweep has forgotten slots, with nobody at work, the slots hold what the bookkeeping
holds. -/
theorem prune (h : map.Resting site) (now : Moment) :
    (map.step (.prune now site.settings.minUpdateInterval)).Resting
      ((Engine.pruneSlots now).run site).2 :=
  ⟨h.idle, h.distinct.step _, h.tracks.prune h.idle now⟩

end Resting

end Lone

end PresenceTracker.SlotMap
