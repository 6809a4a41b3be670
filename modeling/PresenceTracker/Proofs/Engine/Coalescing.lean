import PresenceTracker.Proofs.Engine.Marking
import PresenceTracker.Proofs.Engine.Running

/-!
# Coalescing over a whole history

A diary notes every moment at which a node wrote a user's row, and is emptied when the node
removes the row. The node itself remembers less, and forgets. Yet over every run with a steady
clock and a constant interval it writes nothing but activity exactly where the diary has no
moment that lies less than the interval back, whichever calls fail. So two such writes of a
user that succeed lie an interval apart, unless the node removed the user in between and could
not drop the user from its cache.
-/

namespace PresenceTracker

/-- The moments at which a node wrote the rows of users, the latest first. -/
abbrev Diary := String → List Moment

/-- The moments noted of a user after a stretch of work at `clock`. -/
def Mark.note (clock : Moment) : Mark → List Moment → List Moment
  | kept, moments => moments
  | written, moments => clock :: moments
  | removed, _ => []

namespace Diary

/-- The diary after something has happened to a node. -/
def happen (outside : Outside) (diary : Diary) (site : Site) : Happening → Diary
  | .operation operation => fun user =>
    (operation.mark outside site user).note site.clock (diary user)
  | .incident _ => diary

/-- The diary after a run. -/
def after (outside : Outside) (diary : Diary) (site : Site) : List Happening → Diary
  | [] => diary
  | happening :: rest =>
    after outside (diary.happen outside site happening) (site.happen outside happening) rest

/-- A diary of two runs is that of the second one, begun with that of the first. -/
theorem after_append (outside : Outside) (diary : Diary) (site : Site)
    (first second : List Happening) :
    diary.after outside site (first ++ second) =
      (diary.after outside site first).after outside (site.after outside first) second := by
  induction first generalizing diary site with
  | nil => rfl
  | cons happening rest ih => exact ih _ _

end Diary

/-- Whether the diary has a moment of the user that lies less than an interval back. -/
def Diary.Recent (diary : Diary) (settings : TrackingSettings) (user : String) (now : Moment) :
    Prop :=
  ∃ moment ∈ diary user, now.toInt - moment.toInt < settings.minUpdateInterval.toInt

/-- The moments at which a node wrote the rows of users during a run. -/
def Site.diary (outside : Outside) (site : Site) (run : List Happening) : Diary :=
  Diary.after outside (fun _ => []) site run

/-- The clock does not go back, and the least time between two writes of nothing but activity
stays the same. -/
def Happening.Steady (site : Site) : Happening → Prop
  | .incident (.setClock now) => site.clock ≤ now
  | .incident (.configure settings) =>
    settings.minUpdateIntervalMs = site.settings.minUpdateIntervalMs
  | _ => True

instance (site : Site) (happening : Happening) : Decidable (happening.Steady site) :=
  match happening with
  | .operation _ => .isTrue trivial
  | .incident (.setClock now) => inferInstanceAs (Decidable (site.clock ≤ now))
  | .incident (.configure settings) =>
    inferInstanceAs (Decidable (settings.minUpdateIntervalMs = site.settings.minUpdateIntervalMs))
  | .incident (.vanish _) => .isTrue trivial
  | .incident (.spoil _ _) => .isTrue trivial

/-- During a run the clock does not go back, and the interval stays the same. -/
def Site.Steady (outside : Outside) (site : Site) : List Happening → Prop
  | [] => True
  | happening :: rest =>
    happening.Steady site ∧ (site.happen outside happening).Steady outside rest

instance Site.decidableSteady (outside : Outside) (site : Site) :
    (run : List Happening) → Decidable (site.Steady outside run)
  | [] => .isTrue trivial
  | happening :: rest =>
    have := decidableSteady outside (site.happen outside happening) rest
    inferInstanceAs (Decidable (_ ∧ _))

/-- During a run the node does not remove a user's row. -/
def Site.Retains (outside : Outside) (user : String) (site : Site) : List Happening → Prop
  | [] => True
  | happening :: rest =>
    (∀ operation, happening = .operation operation → operation.mark outside site user ≠ .removed) ∧
      (site.happen outside happening).Retains outside user rest

/-- Whether an operation writes nothing but a user's activity, and the write succeeds. -/
def Operation.refreshes (outside : Outside) (operation : Operation) (site : Site)
    (user : String) : Bool :=
  !(operation.touches outside site).isEmpty && (operation.pending outside site).any
    fun pending => pending.user = user && pending.touchWorks outside

variable {outside : Outside} {site : Site} {diary : Diary}

/-- Two runs are steady if and only if the second one is so from where the first one ends. -/
theorem Site.steady_append {first second : List Happening} :
    site.Steady outside (first ++ second) ↔
      site.Steady outside first ∧ (site.after outside first).Steady outside second := by
  induction first generalizing site with
  | nil => simp [Steady, after]
  | cons happening rest ih =>
    show _ ∧ (site.happen outside happening).Steady outside (rest ++ second) ↔ (_ ∧ _) ∧ _
    rw [ih, and_assoc]
    rfl

/-- Rows and cached records stay under their users, whatever happens. -/
theorem Site.Filed.happen (h : site.Filed) (happening : Happening) :
    (site.happen outside happening).Filed := by
  cases happening with
  | operation operation => exact operation.run_frame (filed_frame outside) site h
  | incident incident => exact incident.filed_befall h

/-- Rows and cached records stay under their users through a run. -/
theorem Site.Filed.after (h : site.Filed) (run : List Happening) :
    (site.after outside run).Filed := by
  induction run generalizing site with
  | nil => exact h
  | cons happening rest ih => exact ih (h.happen happening)

/-- An operation refreshes a user if and only if it writes just the activity of that user, and the
write works. -/
theorem Operation.refreshes_iff {operation : Operation} {user : String} :
    operation.refreshes outside site user = true ↔
      operation.touches outside site ≠ [] ∧
        ∃ pending, operation.pending outside site = some pending ∧
          pending.user = user ∧ pending.touchWorks outside = true := by
  simp [refreshes, Option.any_eq_true]

/-- An operation that writes a user's activity is marked to write the user. -/
theorem Operation.mark_of_refreshes {operation : Operation} {user : String}
    (h : operation.refreshes outside site user = true) :
    operation.mark outside site user = .written := by
  obtain ⟨htouches, pending, hpending, rfl, hworks⟩ := refreshes_iff.mp h
  have hmark : operation.mark outside site pending.user =
      pending.mark outside (operation.touches outside site) pending.user := by
    cases operation with
    | change | setLastActivity => simp only [Operation.mark, hpending]
    | read | readOrDefault | readMany | remove | clearCaches | expire => cases hpending
  rw [hmark, Pending.mark_of_writes (.inr ⟨htouches, hworks⟩)]
  exact if_pos rfl

namespace Diary

/-- A moment is the latest that the diary has of a user. -/
def Latest (diary : Diary) (user : String) (moment : Moment) : Prop :=
  moment ∈ diary user ∧ ∀ earlier ∈ diary user, earlier ≤ moment

/-- The moment noted last is the one that a mark leaves. -/
theorem head?_note (clock : Moment) (mark : Mark) (moments : List Moment) :
    (mark.note clock moments).head? = mark.last clock moments.head? := by
  cases mark <;> rfl

/-- A node remembers what is left of its diary. -/
structure Faithful (diary : Diary) (site : Site) : Prop where
  /-- What the diary notes lies in the past. -/
  past : ∀ (user : String), ∀ moment ∈ diary user, moment ≤ site.clock
  /-- The first moment of a user is the latest one. -/
  latest : ∀ (user : String) (moment : Moment), (diary user).head? = some moment →
    diary.Latest user moment
  /-- A slot holds the first moment of its user, and is missing only where the user has none or
  its window is closed. -/
  slots : ∀ user : String,
    Remains site.settings site.clock (diary user).head? site.slots[user]?

/-- A node that tracks nobody has nothing to be faithful to. -/
theorem faithful_of_empty (h : site.slots = ∅) : Faithful (fun _ => []) site where
  past _ _ := nofun
  latest _ _ := nofun
  slots user := by
    have hnone : site.slots[user]? = none := by rw [h]; rfl
    rw [hnone]
    exact .refl site.settings site.clock none

/-- A window that an earlier moment leaves open is open by the latest moment too. -/
theorem Faithful.recent_iff (h : diary.Faithful site) (user : String) (now : Moment) :
    diary.Recent site.settings user now ↔
      coalesces (diary user).head? now site.settings.minUpdateInterval = true := by
  cases hhead : (diary user).head? with
  | none => simp [Recent, List.head?_eq_none_iff.mp hhead, coalesces_none]
  | some moment =>
    rw [coalesces_some_iff]
    obtain ⟨hmem, hlatest⟩ := h.latest user moment hhead
    refine ⟨fun ⟨earlier, hearlier, hrecent⟩ => ?_, fun hrecent => ⟨moment, hmem, hrecent⟩⟩
    have hle := Int64.le_iff_toInt_le.mp (hlatest earlier hearlier)
    omega

/-- From now on a write of nothing but activity is skipped where the diary has a moment less
than an interval back. -/
theorem Faithful.windows (h : diary.Faithful site) (user : String) (now : Moment)
    (hnow : site.clock ≤ now) :
    coalesces site.slots[user]? now site.settings.minUpdateInterval = true ↔
      diary.Recent site.settings user now := by
  rw [(h.slots user).coalesces_eq hnow, h.recent_iff]

/-- A stretch of work leaves the node faithful to the diary with its marks noted. -/
theorem Faithful.remembers {later : Site} {marks : String → Mark} {touches : List StoreCall}
    (h : diary.Faithful site) (hremembers : site.Remembers marks touches later) :
    Faithful (fun user => (marks user).note site.clock (diary user)) later := by
  have hpast : ∀ (user : String), ∀ moment ∈ (marks user).note site.clock (diary user),
      moment ≤ site.clock := by
    intro user moment hmem
    cases hmark : marks user with
    | kept =>
      rw [hmark] at hmem
      exact h.past user moment hmem
    | written =>
      rw [hmark] at hmem
      rcases List.mem_cons.mp hmem with rfl | hbefore
      · exact Int64.le_refl _
      · exact h.past user moment hbefore
    | removed =>
      rw [hmark] at hmem
      cases hmem
  refine ⟨hremembers.clock.symm ▸ hpast, fun user moment hhead => ?_, fun user => ?_⟩
  · refine ⟨List.mem_of_head? hhead, ?_⟩
    show ∀ earlier ∈ (marks user).note site.clock (diary user), earlier ≤ moment
    have hearlier := hpast user
    cases hmark : marks user with
    | kept =>
      rw [hmark] at hhead
      exact (h.latest user moment hhead).2
    | written =>
      rw [hmark] at hhead hearlier
      cases hhead
      exact hearlier
    | removed => exact nofun
  · rw [hremembers.settings, hremembers.clock, head?_note]
    exact (Mark.remains_last (h.slots user) site.clock (marks user)).trans (hremembers.slots user)

/-- Steady incidents leave the node faithful. -/
theorem Faithful.befall (h : diary.Faithful site) {incident : Incident}
    (hsteady : (Happening.incident incident).Steady site) :
    diary.Faithful (incident.befall site) := by
  cases incident with
  | setClock now =>
    exact ⟨fun user moment hmem => Int64.le_trans (h.past user moment hmem) hsteady, h.latest,
      fun user => (h.slots user).of_le hsteady⟩
  | configure settings =>
    have hsame : settings.minUpdateInterval = site.settings.minUpdateInterval :=
      congrArg (fun count : UInt64 => Moment.ofNatClamp count.toNat) hsteady
    refine ⟨h.past, h.latest, fun user => ?_⟩
    simp only [Remains, Incident.befall, hsame]
    exact h.slots user
  | vanish user => exact ⟨h.past, h.latest, h.slots⟩
  | spoil user frame => exact ⟨h.past, h.latest, h.slots⟩

/-- Whatever happens at a steady clock, the node stays faithful to the diary that notes it. -/
theorem Faithful.happen (hfiled : site.Filed) (h : diary.Faithful site) {happening : Happening}
    (hsteady : happening.Steady site) :
    (diary.happen outside site happening).Faithful (site.happen outside happening) := by
  cases happening with
  | operation operation => exact h.remembers (operation.run_remembers outside hfiled)
  | incident incident => exact h.befall hsteady

/-- A node stays faithful to its diary during a steady run. -/
theorem Faithful.after (hfiled : site.Filed) (h : diary.Faithful site) {run : List Happening}
    (hsteady : site.Steady outside run) :
    (diary.after outside site run).Faithful (site.after outside run) := by
  induction run generalizing site diary with
  | nil => exact h
  | cons happening rest ih =>
    exact ih (hfiled.happen happening) (h.happen hfiled hsteady.1) hsteady.2

/-- A node that is faithful to its diary writes nothing but activity exactly where a change that
needs no full write finds no moment in the diary that is less than an interval back. -/
theorem Faithful.mem_touches_iff (hfiled : site.Filed) (h : diary.Faithful site)
    (operation : Operation) (call : StoreCall) :
    call ∈ operation.touches outside site ↔
      ∃ pending, operation.pending outside site = some pending ∧ pending.isFull = false ∧
        call = .touch pending.user pending.next.lastActivity ∧
        ¬diary.Recent site.settings pending.user site.clock := by
  rw [Operation.touches_of_remembers (operation.run_remembers outside hfiled), Operation.due]
  cases hpending : operation.pending outside site with
  | none => simp
  | some pending =>
    obtain ⟨hidles, -⟩ := Operation.pending_idles hfiled hpending
    have hskips : pending.site.skipsWrite pending.user = true ↔
        diary.Recent site.settings pending.user site.clock := by
      have hwindow := hidles.windows pending.user site.clock (Int64.le_refl _)
      rw [Site.skipsWrite, hidles.clock, hidles.settings, hwindow]
      exact h.windows pending.user site.clock (Int64.le_refl _)
    simp only [Pending.due, Option.some.injEq, exists_eq_left', ← hskips]
    cases pending.isFull <;> cases pending.site.skipsWrite pending.user <;> simp

/-- A moment in the diary stays there as long as the user's row is not removed. -/
theorem mem_after_of_retains {user : String} {moment : Moment} (h : moment ∈ diary user)
    {run : List Happening} (hretains : site.Retains outside user run) :
    moment ∈ diary.after outside site run user := by
  induction run generalizing site diary with
  | nil => exact h
  | cons happening rest ih =>
    refine ih ?_ hretains.2
    cases happening with
    | incident incident => exact h
    | operation operation =>
      have hkeeps := hretains.1 operation rfl
      show moment ∈ (operation.mark outside site user).note site.clock (diary user)
      cases hmark : operation.mark outside site user with
      | kept => exact h
      | written => exact List.mem_cons_of_mem _ h
      | removed => exact absurd hmark hkeeps

/-- Since a moment a user either has been written, as the diary has it, or has no row. -/
structure Since (user : String) (early : Moment) (diary : Diary) (site : Site) : Prop where
  /-- The clock has not gone back. -/
  clock : early ≤ site.clock
  /-- The user has been written since, or has no row. -/
  written : (∃ moment ∈ diary user, early ≤ moment) ∨ site.store[user]? = none

/-- Whatever happens at a steady clock, a user who has been written since a moment stays so
until the row is removed, and then has no row until it is written again. -/
theorem Since.happen {user : String} {early : Moment} (hfiled : site.Filed)
    (h : Since user early diary site) {happening : Happening} (hsteady : happening.Steady site) :
    Since user early (diary.happen outside site happening) (site.happen outside happening) := by
  cases happening with
  | incident incident =>
    have hrefills := incident.befall_refills site
    refine ⟨?_, h.written.imp_right fun hnone => ?_⟩
    · cases incident with
      | setClock now => exact Int64.le_trans h.clock hsteady
      | configure | vanish | spoil => exact h.clock
    · show (incident.befall site).store[user]? = none
      rw [hrefills.store, hnone]
  | operation operation =>
    have hremembers := operation.run_remembers outside hfiled
    refine ⟨hremembers.clock.symm ▸ h.clock, ?_⟩
    show (∃ moment ∈ (operation.mark outside site user).note site.clock (diary user), _) ∨ _
    cases hmark : operation.mark outside site user with
    | kept => exact h.written.imp_right (hremembers.absent user hmark)
    | written => exact .inl ⟨site.clock, List.mem_cons_self, h.clock⟩
    | removed => exact .inr (hremembers.gone user hmark)

/-- What a diary says since a moment goes on being so through a steady run. -/
theorem Since.after {user : String} {early : Moment} (hfiled : site.Filed)
    (h : Since user early diary site) {run : List Happening} (hsteady : site.Steady outside run) :
    Since user early (diary.after outside site run) (site.after outside run) := by
  induction run generalizing site diary with
  | nil => exact h
  | cons happening rest ih =>
    exact ih (hfiled.happen happening) (h.happen hfiled hsteady.1) hsteady.2

/-- After a write of a user the diary still has a moment from then on whenever the node writes
nothing but the user's activity again, if the row was not removed in between or removals from
the cache work. -/
theorem exists_since_refresh (diary : Diary) {early late : Operation}
    {between : List Happening} {user : String} (hfiled : site.Filed)
    (hsteady : site.Steady outside (.operation early :: between))
    (hearly : early.refreshes outside site user = true)
    (hlate : late.refreshes outside (site.after outside (.operation early :: between)) user = true)
    (hfull : ∀ pending, late.pending outside (site.after outside (.operation early :: between)) =
      some pending → pending.isFull = false)
    (hcases : outside.RemovesWork ∧ site.InStep ∨
      (site.happen outside (.operation early)).Retains outside user between) :
    ∃ moment ∈ diary.after outside site (.operation early :: between) user,
      site.clock ≤ moment := by
  have hnoted : site.clock ∈ diary.happen outside site (.operation early) user := by
    show site.clock ∈ (early.mark outside site user).note site.clock (diary user)
    rw [Operation.mark_of_refreshes hearly]
    exact List.mem_cons_self
  rcases hcases with ⟨hremoves, hinStep⟩ | hretains
  · have hclock : (site.happen outside (.operation early)).clock = site.clock :=
      (early.run_remembers outside hfiled).clock
    have hsince : Since user site.clock (diary.happen outside site (.operation early))
        (site.happen outside (.operation early)) :=
      ⟨hclock.symm ▸ Int64.le_refl _, .inl ⟨site.clock, hnoted, Int64.le_refl _⟩⟩
    have hwritten := (hsince.after (hfiled.happen _) hsteady.2).written
    refine hwritten.resolve_right fun hnone => ?_
    -- A change without a full write is one of a record that exists, so the user has a row.
    obtain ⟨-, pending, hpending, rfl, -⟩ := Operation.refreshes_iff.mp hlate
    have hstep := hinStep.after hremoves (.operation early :: between)
    have hpersisted : pending.current.persisted = true := by
      have hpartial := hfull pending hpending
      simp only [Pending.isFull, Current.needsFullSave, Bool.or_eq_false_iff,
        Bool.not_eq_false'] at hpartial
      exact hpartial.1.1.1.1.1
    obtain ⟨row, hrow⟩ := Operation.pending_row hstep hpending hpersisted
    have hidles := (Operation.pending_idles (hfiled.after _) hpending).1
    rw [hidles.absent _ rfl hnone] at hrow
    cases hrow
  · exact ⟨site.clock, mem_after_of_retains hnoted hretains, Int64.le_refl _⟩

end Diary

namespace Site

/-- The interval stays the same during a steady run. -/
theorem minUpdateInterval_after {run : List Happening} (hfiled : site.Filed)
    (h : site.Steady outside run) :
    (site.after outside run).settings.minUpdateInterval = site.settings.minUpdateInterval := by
  induction run generalizing site with
  | nil => rfl
  | cons happening rest ih =>
    refine (ih (hfiled.happen happening) h.2).trans ?_
    cases happening with
    | operation operation =>
      exact congrArg TrackingSettings.minUpdateInterval
        (operation.run_remembers outside hfiled).settings
    | incident incident =>
      cases incident with
      | setClock | vanish | spoil => rfl
      | configure settings =>
        exact congrArg (fun count : UInt64 => Moment.ofNatClamp count.toNat) h.1

/-- Over every run with a steady clock and a constant interval, whichever calls fail, an
operation of a node writes nothing but activity exactly where a change that needs no full write
finds no moment less than the interval back at which the node wrote the user's row. And two such
writes of a user that succeed lie an interval apart, if the node did not remove the row in
between or removals from its cache work. -/
theorem coalescing_exact (outside : Outside) {start : Site} (hslots : start.slots = ∅)
    (hkeyed : start.store.Keyed) (hempty : start.cache = ∅) {run : List Happening}
    (hsteady : start.Steady outside run) (operation : Operation) :
    (∀ call, call ∈ operation.touches outside (start.after outside run) ↔
      ∃ pending, operation.pending outside (start.after outside run) = some pending ∧
        pending.isFull = false ∧ call = .touch pending.user pending.next.lastActivity ∧
        ¬(start.diary outside run).Recent start.settings pending.user
          (start.after outside run).clock) ∧
      ∀ (before : List Happening) (early : Operation) (between : List Happening) (user : String),
        run = before ++ .operation early :: between →
        early.refreshes outside (start.after outside before) user = true →
        operation.refreshes outside (start.after outside run) user = true →
        outside.RemovesWork ∨ ((start.after outside before).happen outside
          (.operation early)).Retains outside user between →
        start.settings.minUpdateInterval.toInt ≤
          (start.after outside run).clock.toInt - (start.after outside before).clock.toInt := by
  have hinStep := inStep_of_empty hkeyed hempty
  have hinterval := minUpdateInterval_after hinStep.filed hsteady
  have hfaithful := (Diary.faithful_of_empty hslots).after hinStep.filed hsteady
  have hexact : ∀ call, call ∈ operation.touches outside (start.after outside run) ↔ _ :=
    hfaithful.mem_touches_iff (hinStep.filed.after run) operation
  simp only [Diary.Recent, hinterval] at hexact
  refine ⟨hexact, ?_⟩
  rintro before early between user rfl hearly hlate hcases
  obtain ⟨hbefore, hbetween⟩ := steady_append.mp hsteady
  obtain ⟨htouches, pending, hpending, huser, -⟩ := Operation.refreshes_iff.mp hlate
  obtain ⟨call, hcall⟩ := List.exists_mem_of_ne_nil _ htouches
  obtain ⟨other, hother, hpartial, -, hclosed⟩ := (hexact call).mp hcall
  obtain rfl : pending = other := Option.some.inj (hpending.symm.trans hother)
  have happend : start.after outside (before ++ .operation early :: between) =
      (start.after outside before).after outside (.operation early :: between) :=
    List.foldl_append
  rw [happend] at hlate hpending
  obtain ⟨moment, hmem, hle⟩ := Diary.exists_since_refresh (start.diary outside before)
    (hinStep.filed.after before) hbetween hearly hlate
    (fun other hother => Option.some.inj (hpending.symm.trans hother) ▸ hpartial)
    (hcases.imp_left fun hremoves => ⟨hremoves, hinStep.after hremoves before⟩)
  rw [diary, ← Diary.after_append] at hmem
  have hopen := Int.not_lt.mp fun hrecent => hclosed ⟨moment, huser ▸ hmem, hrecent⟩
  have hle' := Int64.le_iff_toInt_le.mp hle
  omega

/-- A node that has just started. -/
def fresh : Site where
  clock := 5000

/-- A user comes online and is active a little later, then after the interval, and again after
another one; the first write after the interval fails. -/
def activeRun : List Happening :=
  [.operation (.change "ada" (.online true)), .incident (.setClock 30000),
    .operation (.change "ada" .activity), .incident (.setClock 70000),
    .operation (.change "ada" .activity), .incident (.setClock 71000),
    .operation (.change "ada" .activity), .operation .expire, .incident (.setClock 131000)]

/-- The store refuses the first write of the activity. -/
def weary : Outside where
  storeFault count _ := if count = 7 then some (.refused .timedOut) else none
  cacheFault _ _ := none
  vanishes _ _ := false

/-- The activity is written again once the interval is over since it was last written. -/
theorem coalescing_exact_after_activeRun :
    (Operation.change "ada" .activity).touches weary (fresh.after weary activeRun) ≠ [] ∧
      ¬(fresh.diary weary activeRun).Recent fresh.settings "ada" 131000 ∧
      fresh.settings.minUpdateInterval.toInt ≤
        (131000 : Moment).toInt - (71000 : Moment).toInt := by
  have hsteady : fresh.Steady weary activeRun := by decide +kernel
  obtain ⟨hexact, happart⟩ := coalescing_exact weary rfl Store.keyed_empty rfl hsteady
    (.change "ada" .activity)
  have htouch : StoreCall.touch "ada" 131000 ∈
      (Operation.change "ada" .activity).touches weary (fresh.after weary activeRun) := by
    decide +kernel
  obtain ⟨pending, -, -, hcall, hclosed⟩ := (hexact _).mp htouch
  have hclock : (fresh.after weary activeRun).clock = 131000 := by decide +kernel
  have hbefore : (fresh.after weary (activeRun.take 6)).clock = 71000 := by decide +kernel
  refine ⟨List.ne_nil_of_mem htouch, ?_, ?_⟩
  · obtain ⟨huser, -⟩ := StoreCall.touch.inj hcall
    rwa [hclock, ← huser] at hclosed
  · have hfar := happart (activeRun.take 6) (.change "ada" .activity) (activeRun.drop 7) "ada" rfl
      (by decide +kernel) (by decide +kernel) (.inl fun _ _ => rfl)
    rwa [hclock, hbefore] at hfar

/-- The cache refuses its removals. -/
def clinging : Outside where
  storeFault _ _ := none
  cacheFault
    | _, .remove _ => some .timedOut
    | _, _ => none
  vanishes _ _ := false

/-- A removal while tracking is disabled succeeds without effect: the moments before it still
count, and a change afterwards writes no activity. And a user who was removed while the cache
refused to drop it goes on as if it had a row: its activity is written again, less than an
interval after the last time. -/
theorem coalesced_after_removal :
    (¬∀ (outside : Outside) (before between : List Happening) (user : String)
        (operation : Operation),
      fresh.Steady outside (before ++ .operation (.remove user) :: between) →
      (((Operation.remove user).run outside).run (fresh.after outside before)).1.isOk = true →
      (∀ happening ∈ between, ∃ incident, happening = .incident incident) →
      ((operation.pending outside (fresh.after outside
        (before ++ .operation (.remove user) :: between))).any
          fun pending => pending.user = user && !pending.isFull) = true →
      operation.touches outside (fresh.after outside
        (before ++ .operation (.remove user) :: between)) ≠ []) ∧
    ¬∀ (outside : Outside) (before between : List Happening) (user : String)
        (early late : Operation),
      fresh.Steady outside (before ++ .operation early :: between) →
      early.refreshes outside (fresh.after outside before) user = true →
      late.refreshes outside (fresh.after outside (before ++ .operation early :: between)) user =
        true →
      fresh.settings.minUpdateInterval.toInt ≤
        (fresh.after outside (before ++ .operation early :: between)).clock.toInt -
          (fresh.after outside before).clock.toInt := by
  constructor
  · intro hclaim
    refine hclaim .calm [.operation (.change "ada" (.online true)),
      .incident (.configure { enabled := false })] [.incident (.configure {}),
      .incident (.setClock 6000)] "ada" (.change "ada" .activity) (by decide +kernel)
      (by decide +kernel) ?_ (by decide +kernel) (by decide +kernel)
    intro happening hmem
    simp only [List.mem_cons, List.not_mem_nil, or_false] at hmem
    rcases hmem with rfl | rfl
    · exact ⟨_, rfl⟩
    · exact ⟨_, rfl⟩
  · intro hclaim
    have hfar := hclaim clinging [.operation (.change "ada" (.online true)),
      .incident (.setClock 65000)] [.operation (.remove "ada"), .incident (.setClock 66000)] "ada"
      (.change "ada" .activity) (.change "ada" .activity) (by decide +kernel) (by decide +kernel)
      (by decide +kernel)
    revert hfar
    decide +kernel

end Site

end PresenceTracker
