import LineAssist.Editor.Events
import Mathlib.Data.List.Induction

/-!
# The status that the editor was told last

Every change of the watched documents and every query of the status is told in the same step, with
what is watched and known by then. What else a session tells, as the advice about a missing tool,
is no status. So the editor never has to ask: the last notice is that of the present state.
-/

namespace LineAssist.Editor

variable {more : List Notice}

theorem lastStatus?_append (told more : List Notice) :
    lastStatus? (told ++ more) = (lastStatus? more).or (lastStatus? told) := by
  rw [lastStatus?, lastStatus?, lastStatus?, List.filterMap_append, List.getLast?_append]

namespace Session

variable {host : Host} {s s' t : Session} {events : List Event} {uri language : Text}

/-! ## What an event tells -/

/-- Only what concerns neither the documents nor the status has been told. -/
def Quiet (s s' : Session) : Prop :=
  s'.watch = s.watch ∧ ∃ more, s'.desk.told = s.desk.told ++ more ∧ lastStatus? more = none

/-- The last status told since is that of the present state. -/
def Announced (s s' : Session) : Prop :=
  ∃ more, s'.desk.told = s.desk.told ++ more ∧
    lastStatus? more = some (s'.watch.notice s'.watch.poller.last)

theorem Quiet.refl (s : Session) : Quiet s s :=
  ⟨rfl, [], (List.append_nil _).symm, rfl⟩

theorem Quiet.trans (h : Quiet s s') (h' : Quiet s' t) : Quiet s t := by
  obtain ⟨hwatch, more, htold, hnone⟩ := h
  obtain ⟨hwatch', more', htold', hnone'⟩ := h'
  refine ⟨hwatch'.trans hwatch, more ++ more', ?_, ?_⟩
  · rw [htold', htold, List.append_assoc]
  · rw [lastStatus?_append, hnone, hnone', Option.or_none]

theorem Announced.behind (h : Announced s' t) (told : s'.desk.told = s.desk.told ++ more) :
    Announced s t := by
  obtain ⟨more', htold', hlast⟩ := h
  refine ⟨more ++ more', ?_, ?_⟩
  · rw [htold', told, List.append_assoc]
  · rw [lastStatus?_append, hlast, Option.some_or]

theorem Quiet.announce (h : Quiet s s') (h' : Announced s' t) : Announced s t :=
  let ⟨_, _, told, _⟩ := h
  h'.behind told

theorem Announced.trans (h : Announced s s') (h' : Announced s' t) : Announced s t :=
  let ⟨_, told, _⟩ := h
  h'.behind told

theorem Announced.then_quiet (h : Announced s s') (h' : Quiet s' t) : Announced s t := by
  obtain ⟨more, htold, hlast⟩ := h
  obtain ⟨hwatch, more', htold', hnone⟩ := h'
  refine ⟨more ++ more', ?_, ?_⟩
  · rw [htold', htold, List.append_assoc]
  · rw [lastStatus?_append, hnone, Option.none_or, hlast, hwatch]

theorem quiet_tell {n : Notice} (h : n.status? = none) : Quiet s (s.tell n) :=
  ⟨rfl, [n], rfl, by rw [lastStatus?, List.filterMap_cons_none h]; rfl⟩

theorem watched_eq (s : Session) (e : Watch.Event) :
    s.watched e = match (s.watch.step e).2 with
      | some n => { s with watch := (s.watch.step e).1 }.tell (.status n)
      | none => { s with watch := (s.watch.step e).1 } :=
  rfl

theorem watched_of_silent {e : Watch.Event} (h : s.watch.step e = (s.watch, none)) :
    s.watched e = s := by
  rw [watched_eq, h]

theorem announced_watched {e : Watch.Event} (h : (s.watch.step e).2 =
    some ((s.watch.step e).1.notice (s.watch.step e).1.poller.last)) : Announced s (s.watched e) := by
  rw [watched_eq, h]
  exact ⟨[_], rfl, rfl⟩

theorem watch_watched (s : Session) (e : Watch.Event) :
    (s.watched e).watch = (s.watch.step e).1 := by
  rw [watched_eq]
  split <;> rfl

theorem settings_watched (s : Session) (e : Watch.Event) :
    (s.watched e).settings = s.settings := by
  rw [watched_eq]
  split <;> rfl

/-! ## Asking for the status -/

theorem quiet_adviseInstall (host : Host) (s : Session) (tool : Text) :
    Quiet s (s.adviseInstall host tool) := by
  rw [adviseInstall]
  split
  · exact (quiet_tell rfl).trans (quiet_tell rfl)
  · exact quiet_tell rfl

theorem quiet_checked (host : Host) (s : Session) (b : Backend) (c : Option Backend.Check) :
    Quiet s (s.checked host b c) := by
  have hknown : Quiet s { s with knowledge := .catalog b } := ⟨rfl, [], by simp, rfl⟩
  rw [checked]
  split
  · exact hknown.trans (quiet_adviseInstall host _ b.tool)
  · exact hknown

theorem quiet_askStatus (host : Host) (s : Session) : Quiet s (s.askStatus host).1 := by
  rw [askStatus]
  split
  case h_1 => exact .refl s
  case h_2 b _ =>
    have hchecked := quiet_checked host s (b.askStatus (host.hasTool b.tool)).1
      (b.askStatus (host.hasTool b.tool)).2.1
    dsimp only
    split
    case h_1 => exact hchecked.trans (quiet_tell rfl)
    case h_2 => exact hchecked

theorem settings_askStatus (host : Host) (s : Session) :
    (s.askStatus host).1.settings = s.settings := by
  have hchecked (b : Backend) (c : Option Backend.Check) :
      (s.checked host b c).settings = s.settings := by
    rw [checked, adviseInstall]
    split
    · split <;> rfl
    · rfl
  rw [askStatus]
  split
  case h_1 => rfl
  case h_2 b _ =>
    dsimp only
    split
    case h_1 => exact hchecked _ _
    case h_2 => exact hchecked _ _

/-! ## One event -/

/-- A document that is closed is forgotten by the desk and by the live result at first. -/
theorem closed_eq (host : Host) (s : Session) (uri : Text) : ∃ forgot : Session,
    s.closed host uri = forgot.watched (.closed uri) ∧ Quiet s forgot ∧
      forgot.settings = s.settings := by
  refine ⟨({ s with desk := s.desk.drop uri }.edited host (.close uri)).1, rfl, ?_, rfl⟩
  exact ⟨rfl, [], (List.append_nil _).symm, rfl⟩

/-- The status that is asked for is the answer of the source, whatever is told on the way to it. -/
theorem polled_eq (host : Host) (s : Session) (source : Knowledge) : ∃ (asked : Session)
    (answer : Poller.Answer), s.after host (.polled source) =
      asked.watched (.polling (.once answer)) ∧ Quiet s asked ∧ asked.settings = s.settings := by
  have hsource : Quiet s { s with knowledge := source } := ⟨rfl, [], (List.append_nil _).symm, rfl⟩
  exact ⟨({ s with knowledge := source }.askStatus host).1, _, rfl,
    hsource.trans (quiet_askStatus host _), settings_askStatus host _⟩

theorem settings_after (host : Host) (s : Session) (e : Event) :
    (s.after host e).settings = s.settings := by
  cases e with
  | opened uri language => exact settings_watched s _
  | closed uri =>
    obtain ⟨forgot, hclosed, -, hsettings⟩ := closed_eq host s uri
    rw [after, hclosed, settings_watched, hsettings]
  | polled source =>
    obtain ⟨asked, answer, hpolled, -, hsettings⟩ := polled_eq host s source
    rw [hpolled, settings_watched, hsettings]

theorem announced_opened (host : Host) (s : Session) (uri : Text) :
    Announced s (s.after host (.opened uri s.settings.languageId)) := by
  rw [after, hearOpened, beq_self_eq_true]
  exact announced_watched rfl

theorem announced_polled (host : Host) (s : Session) (source : Knowledge) :
    Announced s (s.after host (.polled source)) := by
  obtain ⟨asked, answer, hpolled, hquiet, -⟩ := polled_eq host s source
  rw [hpolled]
  exact hquiet.announce (announced_watched rfl)

theorem quiet_or_announced_after (host : Host) (s : Session) (e : Event) :
    Quiet s (s.after host e) ∨ Announced s (s.after host e) := by
  cases e with
  | opened uri language =>
    by_cases hlanguage : language = s.settings.languageId
    · subst hlanguage
      exact .inr (announced_opened host s uri)
    · left
      rw [after, hearOpened, beq_false_of_ne hlanguage, watched_of_silent rfl]
      exact .refl s
  | closed uri =>
    obtain ⟨forgot, hclosed, hquiet, -⟩ := closed_eq host s uri
    rw [after, hclosed]
    by_cases hwatched : uri ∈ forgot.watch.documents
    · refine .inr (hquiet.announce (announced_watched ?_))
      rw [Watch.step, if_pos hwatched]
    · have hsilent : forgot.watch.step (.closed uri) = (forgot.watch, none) := if_neg hwatched
      rw [watched_of_silent hsilent]
      exact .inl hquiet
  | polled source => exact .inr (announced_polled host s source)

theorem mem_documents_after (host : Host) (s : Session) (e : Event) (uri : Text) :
    uri ∈ (s.after host e).watch.documents ↔
      e = .opened uri s.settings.languageId ∨ uri ∈ s.watch.documents ∧ e ≠ .closed uri := by
  cases e with
  | opened other language =>
    rw [after, hearOpened, watch_watched, Watch.step]
    by_cases hlanguage : language = s.settings.languageId
    · rw [if_pos (beq_iff_eq.mpr hlanguage), List.mem_insert_iff]
      simp only [Event.opened.injEq, hlanguage, and_true, ne_eq, reduceCtorEq, not_false_eq_true]
      rw [eq_comm]
    · rw [if_neg (mt beq_iff_eq.mp hlanguage)]
      simp [hlanguage]
  | closed other =>
    obtain ⟨forgot, hclosed, ⟨hwatch, -⟩, -⟩ := closed_eq host s other
    rw [after, hclosed, watch_watched, Watch.step, hwatch]
    split
    case isTrue =>
      simp only [List.mem_filter, decide_eq_true_eq, reduceCtorEq, false_or, ne_eq,
        Event.closed.injEq]
      rw [eq_comm (a := uri)]
    case isFalse hother =>
      simp only [reduceCtorEq, false_or, ne_eq, Event.closed.injEq]
      refine ⟨fun huri => ⟨huri, ?_⟩, And.left⟩
      rintro rfl
      exact hother huri
  | polled source =>
    obtain ⟨asked, answer, hpolled, ⟨hwatch, -⟩, -⟩ := polled_eq host s source
    rw [hpolled, watch_watched, Watch.step, hwatch]
    simp

/-! ## Sequences of events -/

theorem afterAll_concat (host : Host) (s : Session) (events : List Event) (e : Event) :
    s.afterAll host (events ++ [e]) = (s.afterAll host events).after host e := by
  rw [afterAll, List.foldl_append]
  rfl

theorem settings_afterAll (host : Host) (s : Session) (events : List Event) :
    (s.afterAll host events).settings = s.settings := by
  induction events using List.reverseRecOn with
  | nil => rfl
  | append_singleton events e ih => rw [afterAll_concat, settings_after, ih]

theorem staysOpen_concat (language : Text) (events : List Event) (e : Event) (uri : Text) :
    StaysOpen language (events ++ [e]) uri ↔
      e = .opened uri language ∨ StaysOpen language events uri ∧ e ≠ .closed uri := by
  constructor
  · rintro ⟨before, later, hevents, hopen⟩
    rcases List.eq_nil_or_concat later with rfl | ⟨later, last, rfl⟩
    · exact .inl (List.append_singleton_inj.mp hevents).2
    · rw [List.concat_eq_append, List.mem_append, not_or, List.mem_singleton] at hopen
      rw [List.concat_eq_append, ← List.cons_append, ← List.append_assoc,
        List.append_singleton_inj] at hevents
      obtain ⟨rfl, rfl⟩ := hevents
      exact .inr ⟨⟨before, later, rfl, hopen.1⟩, Ne.symm hopen.2⟩
  · rintro (rfl | ⟨⟨before, later, rfl, hopen⟩, hclosed⟩)
    · exact ⟨events, [], rfl, List.not_mem_nil⟩
    · refine ⟨before, later ++ [e], by simp, ?_⟩
      simp [hopen, hclosed.symm]

theorem mem_documents_afterAll (host : Host) (s : Session) (events : List Event) (uri : Text) :
    uri ∈ (s.afterAll host events).watch.documents ↔
      StaysOpen s.settings.languageId events uri ∨
        uri ∈ s.watch.documents ∧ .closed uri ∉ events := by
  induction events using List.reverseRecOn with
  | nil => simp [afterAll, StaysOpen]
  | append_singleton events e ih =>
    rw [afterAll_concat, mem_documents_after, settings_afterAll, ih, staysOpen_concat,
      List.mem_append, List.mem_singleton]
    tauto

theorem quiet_or_announced_afterAll (host : Host) (s : Session) (events : List Event) :
    Quiet s (s.afterAll host events) ∨ Announced s (s.afterAll host events) := by
  induction events using List.reverseRecOn with
  | nil => exact .inl (.refl s)
  | append_singleton events e ih =>
    rw [afterAll_concat]
    rcases quiet_or_announced_after host (s.afterAll host events) e with hlast | hlast
    · exact ih.imp (·.trans hlast) (·.then_quiet hlast)
    · exact .inr (ih.elim (·.announce hlast) (·.trans hlast))

theorem announced_afterAll (host : Host) {e : Event} (he : e ∈ events)
    (htold : e.IsTold s.settings.languageId) : Announced s (s.afterAll host events) := by
  induction events using List.reverseRecOn with
  | nil => cases he
  | append_singleton events last ih =>
    rw [afterAll_concat]
    rcases List.mem_append.mp he with he | he
    · rcases quiet_or_announced_after host (s.afterAll host events) last with hlast | hlast
      · exact (ih he).then_quiet hlast
      · exact (ih he).trans hlast
    · obtain rfl := List.mem_singleton.mp he
      have hlast : Announced (s.afterAll host events) ((s.afterAll host events).after host e) := by
        cases e with
        | opened uri language =>
          rw [Event.IsTold, ← settings_afterAll host s events] at htold
          rw [htold]
          exact announced_opened host _ uri
        | closed uri => cases htold
        | polled source => exact announced_polled host _ source
      exact (quiet_or_announced_afterAll host s events).elim (·.announce hlast) (·.trans hlast)

/-- Whatever is opened, closed and polled under one configuration: the watched documents are those
whose last opening in the tool's language has not been followed by a closing, beside the ones that
were watched before and have not been closed; and from the first notice about the status on, which
comes with the first query or opening in that language, the last one tells the last status, which is
to be seen exactly if it is not empty and a document is watched. -/
theorem status_follows_documents (host : Host) (s : Session) (events : List Event) :
    let s' := s.afterAll host events
    (∀ uri, uri ∈ s'.watch.documents ↔ StaysOpen s.settings.languageId events uri ∨
      uri ∈ s.watch.documents ∧ .closed uri ∉ events) ∧
    ∃ more, s'.desk.told = s.desk.told ++ more ∧
      (∀ n, lastStatus? more = some n → n.message = s'.watch.poller.last ∧
        (n.isVisible = true ↔ n.message ≠ [] ∧ s'.watch.documents ≠ [])) ∧
      ((∃ e ∈ events, e.IsTold s.settings.languageId) → ∃ n, lastStatus? more = some n) := by
  intro s'
  refine ⟨mem_documents_afterAll host s events, ?_⟩
  have hevents := quiet_or_announced_afterAll host s events
  by_cases hannounced : Announced s s'
  · obtain ⟨more, htold, hlast⟩ := hannounced
    refine ⟨more, htold, fun n hn => ?_, fun _ => ⟨_, hlast⟩⟩
    obtain rfl := Option.some.inj (hlast.symm.trans hn)
    refine ⟨rfl, ?_⟩
    simp [Watch.notice]
  · obtain ⟨-, more, htold, hnone⟩ := hevents.resolve_right hannounced
    refine ⟨more, htold, fun n hn => ?_, ?_⟩
    · cases hnone.symm.trans hn
    · rintro ⟨e, he, htold⟩
      exact absurd (announced_afterAll host he htold) hannounced

end Session

end LineAssist.Editor
