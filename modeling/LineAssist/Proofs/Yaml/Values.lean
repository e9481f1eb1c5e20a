import LineAssist.Proofs.Yaml.Composing
import LineAssist.Yaml.Meaning

/-!
# Faults in the values of a document

A document of known types has no value if a text in it has none: an impossible date, a number or a
truth value that is not written as one. Merging moves pairs, but changes no text, and no tag except
that of a value sign, so the text at fault stands in the document as it was read.
-/

namespace LineAssist.Yaml

/-! ## Resolving merge keys -/

/-- A tag that stays, or that of a value sign which is read as a text. -/
def Tag.Keeps (a b : Tag) : Prop :=
  b = a ∨ a = .value ∧ b = .str

/-- A node that keeps its kind and its text. -/
inductive Node.Keeps : Node → Node → Prop where
  | scalar {a b : Tag} {t : Text} (h : a.Keeps b) : Keeps (.scalar a t) (.scalar b t)
  | seq {a b : Tag} {items : List Nat} (h : a.Keeps b) : Keeps (.seq a items) (.seq b items)
  | map {a b : Tag} {pairs others : List (Nat × Nat)} (h : a.Keeps b) :
    Keeps (.map a pairs) (.map b others)

namespace Node.Keeps

theorem refl (n : Node) : n.Keeps n := by
  cases n with
  | scalar => exact .scalar (.inl rfl)
  | seq => exact .seq (.inl rfl)
  | map => exact .map (.inl rfl)

theorem tag {n m : Node} (h : n.Keeps m) : n.tag.Keeps m.tag := by
  cases h <;> assumption

theorem isMap_eq {n m : Node} (h : n.Keeps m) : m.isMap = n.isMap := by
  cases h <;> rfl

theorem eq_scalar {n : Node} {tag : Tag} {t : Text} (h : n.Keeps (.scalar tag t)) :
    ∃ tag', n = .scalar tag' t := by
  cases h
  exact ⟨_, rfl⟩

theorem trans {n m k : Node} (h : n.Keeps m) (h' : m.Keeps k) : n.Keeps k := by
  have htag : n.tag.Keeps k.tag := by
    obtain hm | ⟨hm, hk⟩ := h'.tag
    · exact hm ▸ h.tag
    · obtain hn | ⟨-, hn⟩ := h.tag
      · exact .inr ⟨hn ▸ hm, hk⟩
      · rw [hm] at hn
        cases hn
  cases h <;> cases h'
  · exact .scalar htag
  · exact .seq htag
  · exact .map htag

end Node.Keeps

namespace Document

/-- Every node keeps its kind and its text. -/
def Keeps (d e : Document) : Prop :=
  ∀ place, (d.node place).Keeps (e.node place)

theorem Keeps.refl (d : Document) : d.Keeps d :=
  fun _ => .refl _

theorem Keeps.trans {d e f : Document} (h : d.Keeps e) (h' : e.Keeps f) : d.Keeps f :=
  fun place => (h place).trans (h' place)

theorem node_put (d : Document) (place q : Nat) (n : Node) :
    (d.put place n).node q = if place = q ∧ place < d.nodes.size then n else d.node q := by
  simp only [node, put, Array.getD_eq_getD_getElem?, Array.getElem?_setIfInBounds]
  by_cases hq : place = q
  · subst hq
    by_cases hsize : place < d.nodes.size
    · simp [hsize]
    · simp [hsize]
  · simp [hq]

theorem keeps_put {d : Document} {place : Nat} {n : Node} (h : (d.node place).Keeps n) :
    d.Keeps (d.put place n) := by
  intro q
  rw [node_put]
  split
  · next hq => exact hq.1 ▸ h
  · exact .refl _

theorem keeps_readSigns (d : Document) (pairs : List (Nat × Nat)) : d.Keeps (d.readSigns pairs) := by
  unfold readSigns
  refine List.foldlRecOn pairs _ (Keeps.refl d) fun e he (k, _) _ => he.trans ?_
  simp only
  split
  · next h => exact keeps_put (h ▸ .scalar (.inr ⟨rfl, rfl⟩))
  · next h => exact keeps_put (h ▸ .seq (.inr ⟨rfl, rfl⟩))
  · next h => exact keeps_put (h ▸ .map (.inr ⟨rfl, rfl⟩))
  · exact Keeps.refl e

theorem yields_mergeSources (d : Document) (place : Nat) :
    Yields (· = .malformed) (fun _ => True) (d.mergeSources place) := by
  unfold mergeSources
  split
  · exact trivial
  · split
    · exact trivial
    · exact rfl
  · exact rfl

theorem yields_resolveFrom (fuel : Nat) (taken : List (Nat × Nat)) (place : Nat) (d : Document) :
    Yields (· = .malformed) d.Keeps (resolveFrom fuel taken place d) := by
  induction fuel generalizing taken place d with
  | zero => exact Keeps.refl d
  | succ fuel ih =>
    unfold resolveFrom
    split
    · next tag pairs h =>
      have hput (others : List (Nat × Nat)) : d.Keeps (d.put place (.map tag others)) :=
        keeps_put (h ▸ .map (.inl rfl))
      split
      · exact (hput _).trans (keeps_readSigns _ _)
      · next source others _ =>
        refine (yields_mergeSources _ _).bind fun sources _ => ?_
        have hsources : Yields (· = .malformed) d.Keeps
            (sources.foldlM (fun d s => resolveFrom fuel [] s d) (d.put place (.map tag others))) :=
          yields_foldlM d.Keeps (hput _) fun e he s _ =>
            (ih [] s e).imp (fun _ => id) fun _ => he.trans
        exact hsources.bind fun e he => (ih _ _ e).imp (fun _ => id) fun _ => he.trans
    · exact Keeps.refl d

/-! ## Nodes without a value -/

/-- What in a document has no value although it is a document. -/
inductive Valueless (d : Document) : Error → Prop where
  /-- The text of a node, or the text that a mapping stands for, has no value of the tag of that
  node. -/
  | text {place source : Nat} {tag : Tag} {t : Text} {e : Error}
    (held : d.node source = .scalar tag t) (stands : source = place ∨ (d.node place).isMap)
    (valueless : textValue place (d.node place).tag t = .error e) : Valueless d e
  /-- A time is not taken from a mapping. -/
  | time {place : Nat} (isMap : (d.node place).isMap) (tag : (d.node place).tag = .timestamp) :
    Valueless d .timeNotScalar
  /-- A mapping stands for what is under a value sign, in the end for itself. -/
  | endless {place sign : Nat} (isMap : (d.node place).isMap)
    (plain : (d.node place).tag.isPlain ∨ (d.node place).tag = .value)
    (tag : (d.node sign).tag = .value) : Valueless d .endless

/-- A fault that a document may have. -/
def Fault (d : Document) (e : Error) : Prop :=
  e = .malformed ∨ d.Valueless e

/-- The text that a mapping stands for is that of a scalar. -/
theorem yields_textFrom (d : Document) (fuel place : Nat) :
    Yields (fun e => e = .malformed ∨ e = .endless)
      (fun t => ∃ source tag, d.node source = .scalar tag t) (d.textFrom fuel place) := by
  induction fuel generalizing place with
  | zero => exact .inr rfl
  | succ fuel ih =>
    unfold textFrom
    split
    · next h => exact ⟨place, _, h⟩
    · exact .inl rfl
    · split
      · exact ih _
      · exact .inl rfl

theorem yields_textAt (d : Document) (place : Nat) :
    Yields
      (fun e => e = .malformed ∨
        e = .endless ∧ (d.node place).isMap ∧ ∃ sign, (d.node sign).tag = .value)
      (fun t => ∃ source tag, d.node source = .scalar tag t ∧
        (source = place ∨ (d.node place).isMap)) (d.textAt place) := by
  unfold textAt textFrom
  split
  · next h => exact ⟨place, _, h, .inl rfl⟩
  · exact .inl rfl
  · next h =>
    have hmap : (d.node place).isMap := h ▸ rfl
    split
    · next pair hpair =>
      have hsign := List.find?_some hpair
      simp only [decide_eq_true_eq] at hsign
      refine (yields_textFrom d _ _).imp ?_ ?_
      · exact fun e he => he.imp_right fun he => ⟨he, hmap, _, hsign⟩
      · exact fun t ⟨source, tag, ht⟩ => ⟨source, tag, ht, .inr hmap⟩
    · exact .inl rfl

/-- A node without parts has a value, unless the document it comes from is at fault. -/
theorem yields_plainAt {d e : Document} (h : d.Keeps e) (place : Nat) :
    Yields d.Fault (fun _ => True) (e.plainAt place) := by
  have hmap := (h place).isMap_eq
  have htag := (h place).tag
  unfold plainAt
  simp only
  split
  · next hplain =>
    have htext : Yields d.Fault (fun t => ∃ source tag, d.node source = .scalar tag t ∧
        (source = place ∨ (d.node place).isMap)) (e.textAt place) := by
      refine (yields_textAt e place).imp ?_ ?_
      · rintro _ (rfl | ⟨rfl, hisMap, sign, hsign⟩)
        · exact .inl rfl
        · have hkey : (d.node sign).tag = .value :=
            (h sign).tag.elim (fun he => he ▸ hsign) And.left
          exact .inr (.endless (hmap ▸ hisMap) (htag.imp (fun he => he ▸ hplain) And.left) hkey)
      · rintro t ⟨source, tag, ht, hstands⟩
        obtain ⟨tag', ht'⟩ := (ht ▸ h source).eq_scalar
        exact ⟨source, tag', ht', hmap ▸ hstands⟩
    refine htext.bind fun t ⟨source, tag, ht, hstands⟩ => ?_
    split
    · next htime =>
      obtain ⟨htime, hisMap⟩ := Bool.and_eq_true_iff.mp htime
      replace htime := of_decide_eq_true htime
      obtain hsame | ⟨-, hstr⟩ := htag
      · exact .inr (.time (hmap ▸ hisMap) (hsame ▸ htime))
      · rw [hstr] at htime
        cases htime
    · cases hvalue : textValue place (e.node place).tag t with
      | ok v => exact trivial
      | error fault =>
        obtain hsame | ⟨-, hstr⟩ := htag
        · exact .inr (.text ht hstands (hsame ▸ hvalue))
        · rw [hstr] at hvalue
          cases hvalue
  · exact .inl rfl

end Document

namespace Making

variable {d : Document}

/-- The work is on the document, with some merge keys resolved. -/
def WorksOn (d : Document) (w : Making) : Prop :=
  d.Keeps w.document

theorem yields_start {w : Making} (h : WorksOn d w) (place : Nat) :
    Yields d.Fault (WorksOn d) (w.start place) := by
  unfold start
  split
  · exact h
  · split
    · exact h
    · exact (Document.yields_plainAt h place).bind fun _ _ => h

theorem yields_startPair {w : Making} (h : WorksOn d w) (pair : Nat × Nat) :
    Yields d.Fault (WorksOn d) (w.startPair pair) := by
  refine (yields_start h _).bind fun w hw => ?_
  split
  · exact .inl rfl
  · exact yields_start hw _

theorem yields_startSingle {w : Making} (h : WorksOn d w) (item : Nat) :
    Yields d.Fault (WorksOn d) (w.startSingle item) := by
  unfold startSingle
  split
  · exact (yields_start h _).bind fun w hw => yields_start hw _
  · exact .inl rfl

theorem yields_fillPairs {w : Making} (h : WorksOn d w) (place : Nat) :
    Yields d.Fault (fun r => WorksOn d r.2) (w.fillPairs place) := by
  have hresolve : Yields d.Fault d.Keeps (w.document.resolve place) :=
    (Document.yields_resolveFrom _ _ _ _).imp (fun _ => .inl) fun _ => h.trans
  refine hresolve.bind fun e he => ?_
  have hpairs : Yields d.Fault (WorksOn d)
      ((e.pairsAt place).foldlM startPair { w with document := e }) :=
    yields_foldlM _ he fun w hw pair _ => yields_startPair hw pair
  exact hpairs.bind fun w hw => hw

theorem yields_fill {w : Making} (h : WorksOn d w) (place : Nat) :
    Yields d.Fault (WorksOn d) (w.fill place) := by
  have hitems (items : List Nat) : Yields d.Fault (WorksOn d) (items.foldlM start w) :=
    yields_foldlM _ h fun w hw item _ => yields_start hw item
  have hsingles (items : List Nat) : Yields d.Fault (WorksOn d) (items.foldlM startSingle w) :=
    yields_foldlM _ h fun w hw item _ => yields_startSingle hw item
  unfold fill
  split
  · exact (hitems _).bind fun _ hw => hw
  · exact (hsingles _).bind fun _ hw => hw
  · exact (hsingles _).bind fun _ hw => hw
  · exact (yields_fillPairs h _).bind fun _ hw => hw
  · exact (yields_fillPairs h _).bind fun _ hw => hw
  · exact .inl rfl

theorem yields_finish {w : Making} (h : WorksOn d w) (fuel : Nat) :
    Yields d.Fault (WorksOn d) (finish fuel w) := by
  induction fuel generalizing w with
  | zero => exact h
  | succ fuel ih =>
    unfold finish
    split
    · exact h
    · next level _ =>
      have hlevel : Yields d.Fault (WorksOn d) (w.next.reverse.foldlM fill { w with next := [] }) :=
        yields_foldlM _ h fun w hw place _ => yields_fill hw place
      exact hlevel.bind fun w hw => ih hw

end Making

/-- A document has a value, unless it is at fault. -/
theorem Document.yields_value (d : Document) : Yields d.Fault (fun _ => True) d.value := by
  have hstart : Making.WorksOn d ⟨d, Array.replicate d.nodes.size none, []⟩ := Keeps.refl d
  refine (Making.yields_start hstart d.root).bind fun w hw => ?_
  exact (Making.yields_finish hw _).bind fun _ _ => trivial

/-! ## Texts without a value -/

/-- What in a text keeps it from having a value although it is not malformed. -/
inductive Unvalued (t : Text) : Error → Prop where
  | unscannable {e : Error} (cause : Unscannable t e) : Unvalued t e
  | valueless {d : Document} {e : Error} (document : Document.read t = .ok (some d))
      (cause : d.Valueless e) : Unvalued t e

/-- A text has a value unless it is malformed, or holds what has none. -/
theorem yields_read (t : Text) :
    Yields (fun e => e = .malformed ∨ Unvalued t e) (fun _ => True) (read t) := by
  have hdocument : Yields (fun e => e = .malformed ∨ Unvalued t e)
      (fun d? => Document.read t = .ok d?) (Document.read t) :=
    (yields_documentRead t).eq_ok.imp (fun e he => he.imp_right .unscannable) fun _ => id
  refine hdocument.bind fun d? hd => ?_
  cases d? with
  | none => exact trivial
  | some d => exact d.yields_value.imp (fun e he => he.imp_right (.valueless hd)) fun _ => id

end LineAssist.Yaml
