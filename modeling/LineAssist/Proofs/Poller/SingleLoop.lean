import LineAssist.Poller.Interleaving
import Mathlib.Data.List.Basic

/-!
# One loop at work

The loop that is kept is the only one that has neither been stopped nor ended, for stopping marks
the loop in the same step that gives it up. A loop that is at work publishes what it was answered
before it asks again, so that it owes one status at most; one that was stopped publishes nothing
more, whatever it holds and whatever is started after it.
-/

namespace LineAssist.Poller

variable {p p' : Poller} {sc : Scene} {e : Event} {l l' : Loop} {number m : Nat} {status? : Option Text}

/-! ## What an event does -/

/-- What a poller becomes by an event, and what is published. -/
inductive Goes (p : Poller) : Event → Poller → Option Text → Prop
  | idle {e : Event} (unheard : p.reached? e = none) : Goes p e p none
  | starts (still : p.isRunning = false) :
      Goes p .start { p with loops := p.loops ++ [.fresh], current := some p.loops.length } none
  | stops {number : Nat} (kept : p.current = some number) :
      Goes p .stop { p with
        loops := p.loops.modify number fun l => { l with isStopped := true }
        current := none } none
  | asks {number : Nat} (rests : p.loops[number]? = some ⟨.resting, false⟩) :
      Goes p (.ask number) { p with loops := p.loops.set number ⟨.asking, false⟩ } none
  | takes {number : Nat} {a : Answer} (asks : p.loops[number]? = some ⟨.asking, false⟩) :
      Goes p (.answer number a)
        { p with loops := p.loops.set number ⟨.holding (statusOf a), false⟩ } none
  | publishes {number : Nat} {status : Text}
      (holds : p.loops[number]? = some ⟨.holding status, false⟩) :
      Goes p (.publish number)
        { p with last := status, loops := p.loops.set number ⟨.resting, false⟩ } (some status)
  | ends {number : Nat} {point : Point} (stopped : p.loops[number]? = some ⟨point, true⟩) :
      Goes p (.ends number) { p with loops := p.loops.set number ⟨.ended, true⟩ } none
  | once (a : Answer) : Goes p (.once a) { p with last := statusOf a } (some (statusOf a))

theorem goes_step (p : Poller) (e : Event) : Goes p e (p.step e).1 (p.step e).2 := by
  cases e with
  | start =>
    rw [step]
    split
    case isTrue => exact .idle rfl
    case isFalse still => exact .starts (Bool.eq_false_iff.mpr still)
  | stop =>
    rw [step]
    split
    case h_1 number kept => exact .stops kept
    case h_2 => exact .idle rfl
  | ask number =>
    rw [step, move]
    split
    case isTrue rests => exact .asks rests
    case isFalse => exact .idle rfl
  | answer number a =>
    rw [step, move]
    split
    case isTrue asks => exact .takes asks
    case isFalse deaf => exact .idle (if_neg deaf)
  | publish number =>
    rw [step]
    split
    case h_1 status holds =>
      rw [move, if_pos holds]
      exact .publishes holds
    case h_2 => exact .idle rfl
  | ends number =>
    rw [step]
    split
    case h_1 point stopped => exact .ends stopped
    case h_2 => exact .idle rfl
  | once a => exact .once a

/-! ## The loop that is kept -/

theorem isActive_of_getElem? (h : p.loops[number]? = some l) :
    p.IsActive number ↔ l.isActive = true := by
  constructor
  · rintro ⟨l', hl', hactive⟩
    cases h.symm.trans hl'
    exact hactive
  · exact fun hactive => ⟨l, h, hactive⟩

/-- A loop that stays at work, or that stays out of it, leaves the others as they are. -/
theorem isActive_set (hloops : p'.loops = p.loops.set number l') (h : p.loops[number]? = some l)
    (hsame : l'.isActive = l.isActive) : p'.IsActive m ↔ p.IsActive m := by
  obtain ⟨hlt, -⟩ := List.getElem?_eq_some_iff.mp h
  by_cases hm : number = m
  · subst hm
    have h' : p'.loops[number]? = some l' := by rw [hloops, List.getElem?_set_self hlt]
    rw [isActive_of_getElem? h, isActive_of_getElem? h', hsame]
  · rw [IsActive, IsActive, hloops, List.getElem?_set_ne hm]

/-- The loops at work are the one that is kept. -/
def KeepsActive (p : Poller) : Prop :=
  ∀ number, p.IsActive number ↔ p.current = some number

theorem KeepsActive.isRunning (h : p.KeepsActive) (kept : p.current = some number) :
    p.isRunning = true := by
  obtain ⟨l, hl, hactive⟩ := (h number).mpr kept
  rw [Loop.isActive, Bool.and_eq_true] at hactive
  simp [Poller.isRunning, kept, hl, hactive.2]

theorem KeepsActive.eq_none (h : p.KeepsActive) (still : p.isRunning = false) :
    p.current = none := by
  cases kept : p.current with
  | none => rfl
  | some number => cases still.symm.trans (h.isRunning kept)

theorem keepsActive_goes (h : p.KeepsActive) (hgoes : Goes p e p' status?) : p'.KeepsActive := by
  intro m
  cases hgoes with
  | idle => exact h m
  | starts still =>
    have hnone : ¬p.IsActive m := by
      rw [h m, h.eq_none still]
      nofun
    rcases Nat.lt_trichotomy m p.loops.length with hlt | rfl | hgt
    · refine iff_of_false ?_ fun heq => Nat.ne_of_gt hlt (Option.some.inj heq)
      rwa [IsActive, List.getElem?_append_left hlt]
    · exact iff_of_true ⟨.fresh, List.getElem?_concat_length, rfl⟩ rfl
    · refine iff_of_false ?_ fun heq => Nat.ne_of_lt hgt (Option.some.inj heq)
      rintro ⟨l, hl, -⟩
      have hlt := (List.getElem?_eq_some_iff.mp hl).1
      rw [List.length_append, List.length_singleton] at hlt
      omega
  | @stops number kept =>
    refine iff_of_false ?_ nofun
    rintro ⟨l, hl, hactive⟩
    rw [List.getElem?_modify] at hl
    obtain ⟨before, hbefore, rfl⟩ := Option.map_eq_some_iff.mp hl
    by_cases hm : number = m
    · rw [if_pos hm] at hactive
      cases hactive
    · rw [if_neg hm] at hactive
      exact hm (Option.some.inj (kept.symm.trans ((h m).mp ⟨before, hbefore, hactive⟩)))
  | asks rests => exact Iff.trans (isActive_set rfl rests rfl) (h m)
  | takes asks => exact Iff.trans (isActive_set rfl asks rfl) (h m)
  | publishes holds => exact Iff.trans (isActive_set rfl holds rfl) (h m)
  | ends stopped => exact Iff.trans (isActive_set rfl stopped rfl) (h m)
  | once => exact h m

/-! ## What loops were answered and what they published -/

theorem answersOf_after (sc : Scene) (e : Event) (number : Nat) :
    (sc.after e).answersOf number = sc.answersOf number ++
      ((sc.poller.reached? e).toList.filter fun r => r.1 == number).map Prod.snd := by
  rw [Scene.answersOf, Scene.after, List.filter_append, List.map_append, Scene.answersOf]

theorem publishedBy_after (sc : Scene) (e : Event) (number : Nat) :
    (sc.after e).publishedBy number = sc.publishedBy number ++
      if e.publisher? = some number then (sc.poller.step e).2.toList else [] := by
  rw [Scene.publishedBy, Scene.after, List.filter_append, List.map_append, Scene.publishedBy]
  congr 1
  cases (sc.poller.step e).2 with
  | none => simp
  | some status => by_cases h : e.publisher? = some number <;> simp [h]

/-- What a loop was answered agrees with what it published. A loop at work owes what it holds; one
that was stopped owes one status at most, which it will not publish. -/
inductive Settled (answered published : List Text) : Option Loop → Prop
  | unstarted (noAnswer : answered = []) (nothing : published = []) : Settled answered published none
  | working {l : Loop} (active : l.isActive = true) (told : answered = published ++ l.held) :
      Settled answered published (some l)
  | stopped {l : Loop} (inactive : l.isActive = false) {lost : List Text}
      (short : lost.length ≤ 1) (told : answered = published ++ lost) :
      Settled answered published (some l)

theorem Loop.length_held (l : Loop) : l.held.length ≤ 1 := by
  unfold Loop.held
  split <;> simp

/-- The end of a loop leaves what it owes. -/
theorem Settled.stop {answered published : List Text} (h : Settled answered published (some l))
    (inactive : l'.isActive = false) : Settled answered published (some l') := by
  cases h with
  | working _ told => exact .stopped inactive l.length_held told
  | stopped _ short told => exact .stopped inactive short told

theorem Settled.told {answered published : List Text} (h : Settled answered published (some l))
    (active : l.isActive = true) : answered = published ++ l.held := by
  cases h with
  | working _ told => exact told
  | stopped inactive => cases inactive.symm.trans active

section Step

variable {answers : List Answer} {published : List Text}

theorem settled_quiet {l? : Option Loop} (unheard : p.reached? e = none)
    (unsaid : e.publisher? = none) (h : Settled (answers.map statusOf) published l?) :
    Settled ((answers ++ ((p.reached? e).toList.filter fun r => r.1 == m).map Prod.snd).map statusOf)
      (published ++ if e.publisher? = some m then status?.toList else []) l? := by
  simpa [unheard, unsaid] using h

theorem settled_goes (hgoes : Goes p e p' status?)
    (h : Settled (answers.map statusOf) published p.loops[m]?) :
    Settled ((answers ++ ((p.reached? e).toList.filter fun r => r.1 == m).map Prod.snd).map statusOf)
      (published ++ if e.publisher? = some m then status?.toList else []) p'.loops[m]? := by
  -- the frame: an event about one loop leaves the others alone
  have hother {number : Nat} (hm : number ≠ m) (l : Loop) :
      (p.loops.set number l)[m]? = p.loops[m]? := List.getElem?_set_ne hm
  have hself {number : Nat} {before after : Loop} (hbefore : p.loops[number]? = some before) :
      (p.loops.set number after)[number]? = some after :=
    List.getElem?_set_self (List.getElem?_eq_some_iff.mp hbefore).1
  cases hgoes with
  | idle unheard => simpa [unheard] using h
  | starts =>
    refine settled_quiet rfl rfl ?_
    rcases Nat.lt_trichotomy m p.loops.length with hlt | rfl | hgt
    · rwa [List.getElem?_append_left hlt]
    · rw [List.getElem?_eq_none (Nat.le_refl _)] at h
      obtain ⟨noAnswer, nothing⟩ := h
      rw [noAnswer, nothing, List.getElem?_concat_length]
      exact .working rfl rfl
    · rw [List.getElem?_eq_none (Nat.le_of_lt hgt)] at h
      rwa [List.getElem?_eq_none (by rw [List.length_append, List.length_singleton]; omega)]
  | @stops number kept =>
    refine settled_quiet rfl rfl ?_
    by_cases hm : number = m
    · subst hm
      rw [List.getElem?_modify_eq]
      cases hl : p.loops[number]? with
      | none => rwa [hl] at h
      | some l =>
        rw [hl] at h
        exact h.stop rfl
    · rwa [List.getElem?_modify_ne _ _ hm]
  | @asks number rests =>
    refine settled_quiet rfl rfl ?_
    by_cases hm : number = m
    · subst hm
      rw [rests] at h
      rw [hself rests]
      exact .working rfl (h.told rfl)
    · rwa [hother hm]
  | @takes number a asks =>
    simp only [reached?, if_pos asks, Option.toList_some, Event.publisher?, reduceCtorEq, if_false,
      List.append_nil]
    by_cases hm : number = m
    · subst hm
      rw [asks] at h
      rw [hself asks]
      refine .working rfl ?_
      have htold : answers.map statusOf = published ++ [] := h.told rfl
      simp [htold, Loop.held]
    · rw [hother hm]
      simpa [hm] using h
  | @publishes number status holds =>
    simp only [reached?, Option.toList_none, List.filter_nil, List.map_nil, List.append_nil,
      Event.publisher?, Option.some_inj, Option.toList_some]
    by_cases hm : number = m
    · subst hm
      rw [holds] at h
      rw [hself holds, if_pos rfl]
      refine .working rfl ?_
      have htold : answers.map statusOf = published ++ [status] := h.told rfl
      simp [htold, Loop.held]
    · rwa [hother hm, if_neg hm, List.append_nil]
  | @ends number point stopped =>
    refine settled_quiet rfl rfl ?_
    by_cases hm : number = m
    · subst hm
      rw [stopped] at h
      rw [hself stopped]
      exact h.stop rfl
    · rwa [hother hm]
  | once => simpa [reached?, Event.publisher?] using h

end Step

/-! ## Loops that were given up -/

/-- A loop was started, and then it was stopped or ended. -/
def IsGivenUp (p : Poller) (number : Nat) : Prop :=
  ∃ l, p.loops[number]? = some l ∧ l.isActive = false

/-- A loop stays given up, and publishes nothing. -/
theorem Goes.givenUp (hgoes : Goes p e p' status?) (h : p.IsGivenUp m) :
    p'.IsGivenUp m ∧ (e.publisher? = some m → status? = none) := by
  obtain ⟨l, hl, inactive⟩ := h
  have hother {number : Nat} {before : Loop} (hbefore : p.loops[number]? = some before)
      (active : before.isActive = true) : number ≠ m := by
    rintro rfl
    cases hbefore.symm.trans hl
    cases active.symm.trans inactive
  cases hgoes with
  | idle => exact ⟨⟨l, hl, inactive⟩, fun _ => rfl⟩
  | starts =>
    refine ⟨⟨l, ?_, inactive⟩, nofun⟩
    rwa [List.getElem?_append_left (List.getElem?_eq_some_iff.mp hl).1]
  | @stops number kept =>
    refine ⟨?_, nofun⟩
    by_cases hm : number = m
    · subst hm
      exact ⟨{ l with isStopped := true }, by rw [List.getElem?_modify_eq, hl]; rfl, rfl⟩
    · exact ⟨l, by rwa [List.getElem?_modify_ne _ _ hm], inactive⟩
  | asks rests =>
    exact ⟨⟨l, by rwa [List.getElem?_set_ne (hother rests rfl)], inactive⟩, nofun⟩
  | takes asks =>
    exact ⟨⟨l, by rwa [List.getElem?_set_ne (hother asks rfl)], inactive⟩, nofun⟩
  | publishes holds =>
    refine ⟨⟨l, by rwa [List.getElem?_set_ne (hother holds rfl)], inactive⟩, fun hm => ?_⟩
    exact absurd (Option.some.inj hm) (hother holds rfl)
  | @ends number point stopped =>
    refine ⟨?_, nofun⟩
    by_cases hm : number = m
    · subst hm
      exact ⟨⟨.ended, true⟩, List.getElem?_set_self (List.getElem?_eq_some_iff.mp hl).1, rfl⟩
    · exact ⟨l, by rwa [List.getElem?_set_ne hm], inactive⟩
  | once => exact ⟨⟨l, hl, inactive⟩, nofun⟩

theorem publishedBy_run_of_givenUp (h : sc.poller.IsGivenUp m) (events : List Event) :
    (sc.run events).publishedBy m = sc.publishedBy m := by
  induction events generalizing sc with
  | nil => rfl
  | cons e events ih =>
    obtain ⟨hafter, hsilent⟩ := (goes_step sc.poller e).givenUp h
    have hsame : (sc.after e).publishedBy m = sc.publishedBy m := by
      rw [publishedBy_after]
      split
      case isTrue hpublisher => rw [hsilent hpublisher, Option.toList_none, List.append_nil]
      case isFalse => rw [List.append_nil]
    exact (ih hafter).trans hsame

/-- A loop that has been started is given up unless it is at work. -/
theorem isGivenUp_of_lt (hlt : m < p.loops.length) (hidle : ¬p.IsActive m) : p.IsGivenUp m :=
  ⟨p.loops[m], List.getElem?_eq_getElem hlt,
    Bool.eq_false_iff.mpr fun active => hidle ⟨_, List.getElem?_eq_getElem hlt, active⟩⟩

/-! ## Whole histories -/

theorem Goes.last_eq (hgoes : Goes p e p' status?) : p'.last = status?.getD p.last := by
  cases hgoes <;> rfl

/-- What holds however the events of a poller are ordered. -/
structure Sound (sc : Scene) : Prop where
  kept : sc.poller.KeepsActive
  settled : ∀ number, Settled ((sc.answersOf number).map statusOf) (sc.publishedBy number)
    sc.poller.loops[number]?
  last : ∀ publisher status, sc.published.getLast? = some (publisher, status) →
    sc.poller.last = status

theorem sound_initial : Sound .initial where
  kept _ := iff_of_false (fun ⟨_, hl, _⟩ => nomatch hl) nofun
  settled _ := .unstarted rfl rfl
  last := nofun

theorem sound_after (h : Sound sc) (e : Event) : Sound (sc.after e) where
  kept := keepsActive_goes h.kept (goes_step sc.poller e)
  settled number := by
    rw [answersOf_after, publishedBy_after]
    exact settled_goes (goes_step sc.poller e) (h.settled number)
  last publisher status hlast := by
    have hgoes := (goes_step sc.poller e).last_eq
    rw [Scene.after] at hlast ⊢
    cases hstatus : (sc.poller.step e).2 with
    | none =>
      rw [hstatus] at hgoes hlast
      rw [Option.map_none, Option.toList_none, List.append_nil] at hlast
      exact hgoes.trans (h.last publisher status hlast)
    | some s =>
      rw [hstatus] at hgoes hlast
      rw [Option.map_some, Option.toList_some, List.getLast?_concat] at hlast
      cases hlast
      exact hgoes

theorem sound_run (h : Sound sc) (events : List Event) : Sound (sc.run events) := by
  induction events generalizing sc with
  | nil => exact h
  | cons e events ih => exact ih (sound_after h e)

/-- A start leaves a loop at work: the one that is kept, or a new one. -/
theorem exists_isActive_start (h : sc.poller.KeepsActive) :
    ∃ number, (sc.after .start).poller.IsActive number := by
  have hgoes := goes_step sc.poller .start
  have hkept := keepsActive_goes h hgoes
  change ∃ number, (sc.poller.step .start).1.IsActive number
  simp only [hkept _]
  rw [step]
  split
  case isTrue running =>
    cases kept : sc.poller.current with
    | none => simp [Poller.isRunning, kept] at running
    | some number => exact ⟨number, rfl⟩
  case isFalse => exact ⟨_, rfl⟩

theorem isGivenUp_stop (h : sc.poller.KeepsActive) (hlt : m < sc.poller.loops.length) :
    (sc.after .stop).poller.IsGivenUp m := by
  have hkept := keepsActive_goes h (goes_step sc.poller .stop)
  have hnone : (sc.poller.step .stop).1.current = none := by
    rw [step]
    split
    case h_1 => rfl
    case h_2 none => exact none
  refine isGivenUp_of_lt ?_ ?_
  · change m < (sc.poller.step .stop).1.loops.length
    rw [step]
    split
    case h_1 => rwa [List.length_modify]
    case h_2 => exact hlt
  · rw [Scene.after, hkept m, hnone]
    nofun

/-- However starts, stops, single queries and the steps of the loops are ordered, and whatever the
queries come to: at most one loop has neither been stopped nor ended, and a start leaves one; each
loop publishes the statuses of its answers in their order, the empty one for a query that failed,
where a loop at work owes only what it holds, which it publishes when it goes on, and one that was
stopped has lost one status at most; by a stop every loop is made to publish nothing more; and the
last status is the last one that was published. -/
theorem one_loop_publishes (history : List Event) :
    let sc := Scene.initial.run history
    (∀ m n, sc.poller.IsActive m → sc.poller.IsActive n → m = n) ∧
    (∃ n, (sc.after .start).poller.IsActive n) ∧
    (∀ n l, sc.poller.loops[n]? = some l → ∃ owed : List Text,
      (sc.answersOf n).map statusOf = sc.publishedBy n ++ owed ∧ owed.length ≤ 1 ∧
      (l.isActive = true → owed = l.held)) ∧
    (∀ n status, sc.poller.loops[n]? = some ⟨.holding status, false⟩ →
      (sc.after (.publish n)).publishedBy n = sc.publishedBy n ++ [status]) ∧
    (∀ n, n < sc.poller.loops.length → ∀ later,
      ((sc.after .stop).run later).publishedBy n = sc.publishedBy n) ∧
    (∀ publisher status, sc.published.getLast? = some (publisher, status) →
      sc.poller.last = status) := by
  intro sc
  have hsound : Sound sc := sound_run sound_initial history
  refine ⟨fun m n hm hn => ?_, exists_isActive_start hsound.kept, fun n l hl => ?_,
    fun n status holds => ?_, fun n hlt later => ?_, hsound.last⟩
  · rw [hsound.kept] at hm hn
    exact Option.some.inj (hm.symm.trans hn)
  · have hsettled := hsound.settled n
    rw [hl] at hsettled
    cases hsettled with
    | working _ told => exact ⟨l.held, told, l.length_held, fun _ => rfl⟩
    | stopped inactive short told =>
      exact ⟨_, told, short, fun active => nomatch active.symm.trans inactive⟩
  · have hpublisher : (Event.publish n).publisher? = some n := rfl
    rw [publishedBy_after, if_pos hpublisher, step, holds]
    rfl
  · rw [publishedBy_run_of_givenUp (isGivenUp_stop hsound.kept hlt), publishedBy_after]
    simp [Event.publisher?]

/-- A loop whose first query failed holds its second status when it is stopped. Another one is
started and publishes before the first one ends. -/
theorem overlapping_loops_publish :
    let history : List Event := [.start, .ask 0, .answer 0 (.error "gone".toList), .publish 0, .ask 0,
      .answer 0 (.ok "old".toList), .stop, .start, .ask 1, .publish 0, .answer 1 (.ok "new".toList),
      .publish 1, .answer 0 (.ok "late".toList)]
    let sc := Scene.initial.run history
    sc.poller.loops = [⟨.holding "old".toList, true⟩, ⟨.resting, false⟩] ∧
    sc.published = [(some 0, []), (some 1, "new".toList)] ∧
    sc.answersOf 0 = [.error "gone".toList, .ok "old".toList] ∧
    sc.poller.IsActive 1 ∧ (∀ n, sc.poller.IsActive n → n = 1) ∧ sc.poller.last = "new".toList ∧
    ∀ later, ((sc.after .stop).run later).publishedBy 1 = ["new".toList] := by
  intro history sc
  obtain ⟨hone, -, -, -, hstopped, hlast⟩ := one_loop_publishes history
  have hactive : sc.poller.IsActive 1 := ⟨⟨.resting, false⟩, rfl, rfl⟩
  exact ⟨rfl, rfl, rfl, hactive, fun n hn => hone n 1 hn hactive, hlast (some 1) _ rfl,
    hstopped 1 (by decide)⟩

end LineAssist.Poller
