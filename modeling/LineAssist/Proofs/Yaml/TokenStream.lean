import LineAssist.Proofs.Yaml.Scanning

/-!
# Faults in a token stream

The stream of a text stops at its first fault, which is one of that text.
-/

namespace LineAssist.Yaml

namespace Stream

/-- The text that is left. -/
def left (s : Stream) : Text :=
  s.cursor.rest

theorem skipToToken_suffix (fuel : Nat) (s : Stream) : (skipToToken fuel s).left <:+ s.left := by
  induction fuel generalizing s with
  | zero => exact List.suffix_rfl
  | succ fuel ih =>
    have hcomment : s.cursor.skipSpaces.skipComment.rest <:+ s.left :=
      (Cursor.skipComment_suffix _).trans (s.cursor.skipWhile_suffix _)
    unfold skipToToken
    simp only
    split
    · next h => exact (ih _).trans ((Cursor.lineBreak?_suffix h).trans hcomment)
    · exact hcomment

@[simp] theorem left_unwindTo (column : Int) (s : Stream) : (s.unwindTo column).left = s.left := by
  have hunwind (fuel : Nat) (s : Stream) : (unwind column fuel s).left = s.left := by
    induction fuel generalizing s with
    | zero => rfl
    | succ fuel ih =>
      unfold unwind
      split
      · exact ih _
      · rfl
  exact hunwind _ s

@[simp] theorem left_openAt (column place : Nat) (t : Token) (s : Stream) :
    (s.openAt column place t).left = s.left := by
  unfold openAt
  split <;> rfl

theorem single_suffix (t : Token) (s : Stream) : (s.single t).left <:+ s.left :=
  s.cursor.next_suffix

theorem scans_dropStale (s : Stream) : Scans left s.left s.dropStale :=
  scans_guard List.suffix_rfl

theorem scans_dropCandidate (s : Stream) : Scans left s.left s.dropCandidate := by
  unfold dropCandidate
  split
  · exact scans_guard List.suffix_rfl
  · exact scans_ok List.suffix_rfl

theorem scans_saveCandidate (s : Stream) : Scans left s.left s.saveCandidate := by
  unfold saveCandidate
  split
  · exact s.scans_dropCandidate.bind fun _ => scans_ok List.suffix_rfl
  · exact scans_ok List.suffix_rfl

theorem scans_openFlow (t : Token) (s : Stream) : Scans left s.left (s.openFlow t) :=
  s.scans_saveCandidate.bind fun s => scans_ok (s.single_suffix t)

theorem scans_closeFlow (t : Token) (s : Stream) : Scans left s.left (s.closeFlow t) :=
  s.scans_dropCandidate.bind fun s => scans_guard (s.single_suffix t)

theorem scans_flowEntry (s : Stream) : Scans left s.left s.flowEntry :=
  s.scans_dropCandidate.bind fun s => scans_ok (s.single_suffix .flowEntry)

theorem scans_blockIndicator (opening indicator : Token) (allowKey : Bool) (s : Stream) :
    Scans left s.left (s.blockIndicator opening indicator allowKey) := by
  have hlast (s : Stream) : Scans left s.left (do
      let s ← s.dropCandidate
      .ok { s.single indicator with allowKey := allowKey }) :=
    s.scans_dropCandidate.bind fun s => scans_ok (s.single_suffix indicator)
  unfold blockIndicator
  extract_lets last
  split
  · split
    · exact (hlast _).of_eq (left_openAt _ _ _ s)
    · exact scans_malformed.bind hlast
  · exact hlast s

theorem scans_valueIndicator (s : Stream) : Scans left s.left s.valueIndicator := by
  unfold valueIndicator
  split
  · next k _ =>
    have hopened (s : Stream) : (if s.flow == 0 then
        s.openAt k.column k.place .blockMappingStart else s).left = s.left := by
      split
      · exact left_openAt _ _ _ s
      · rfl
    refine scans_ok ((single_suffix .value _).trans ?_)
    rw [hopened]
    exact List.suffix_rfl
  · exact s.scans_blockIndicator _ _ _

theorem scans_keyLike {α : Type} {read : Cursor → Except Error (α × Cursor)} (make : α → Token)
    (h : ∀ c, Scans restOf c.rest (read c)) (s : Stream) :
    Scans left s.left (s.keyLike read make) :=
  s.scans_saveCandidate.bind fun s => (h s.cursor).bind fun (_, _) => scans_ok List.suffix_rfl

theorem scans_plain (s : Stream) : Scans left s.left s.plain :=
  s.scans_saveCandidate.bind fun s => scans_ok (readPlain_suffix _ _ s.cursor)

theorem scans_blockScalar (folded : Bool) (s : Stream) : Scans left s.left (s.blockScalar folded) :=
  s.scans_dropCandidate.bind fun s =>
    (scans_readBlockScalar folded _ s.cursor).bind fun (_, _) => scans_ok List.suffix_rfl

theorem scans_atLineStart {read : Cursor → Except Error (Token × Cursor)}
    (h : ∀ c, Scans restOf c.rest (read c)) (s : Stream) : Scans left s.left (s.atLineStart read) := by
  refine ((scans_dropCandidate _).of_eq (left_unwindTo (-1) s)).bind fun s => ?_
  exact (h s.cursor).bind fun (_, _) => scans_ok List.suffix_rfl

theorem scans_fetch (ch : Char) (s : Stream) : Scans left s.left (s.fetch ch) := by
  have hmarker (t : Token) : Scans left s.left (s.atLineStart fun c => .ok (t, c.skip 3)) :=
    scans_atLineStart (fun c => scans_part (c.skip_suffix 3)) s
  unfold fetch
  refine scans_ite ?_ <| scans_ite (hmarker _) <| scans_ite (hmarker _) <| ?_
  · exact scans_atLineStart (fun c => (scans_readDirective c).bind fun (d, after) =>
      scans_part List.suffix_rfl) s
  refine scans_ite (scans_openFlow _ s) <| scans_ite (scans_openFlow _ s) <|
    scans_ite (scans_closeFlow _ s) <| scans_ite (scans_closeFlow _ s) <|
    scans_ite s.scans_flowEntry ?_
  refine scans_ite (scans_blockIndicator _ _ _ s) <| scans_ite (scans_blockIndicator _ _ _ s) <|
    scans_ite s.scans_valueIndicator ?_
  refine scans_ite (scans_keyLike _ scans_readName s) <|
    scans_ite (scans_keyLike _ scans_readName s) <| scans_ite (scans_keyLike _ scans_readTag s) <|
    scans_ite (scans_blockScalar _ s) <| scans_ite (scans_blockScalar _ s) ?_
  exact scans_ite (scans_keyLike _ (scans_readQuoted false) s) <|
    scans_ite (scans_keyLike _ (scans_readQuoted true) s) <|
    scans_ite s.scans_plain scans_malformed

/-- The tokens of a stream end at a fault of the text that is left, if they end at one. -/
theorem faulty_of_run {fuel : Nat} {s : Stream} {e : Error} (h : (s.run fuel).2 = some e) :
    Faulty s.left e := by
  induction fuel generalizing s with
  | zero =>
    cases h
    exact .inl rfl
  | succ fuel ih =>
    unfold run at h
    extract_lets s' step at h
    have hstart : s'.left <:+ s.left := skipToToken_suffix _ s
    have hstep : Scans left s.left step := by
      refine (s'.scans_dropStale.mono hstart).bind fun s => ?_
      refine Scans.of_eq ?_ (left_unwindTo s.cursor.column s)
      simp only
      split
      · exact scans_fetch _ _
      · exact (scans_dropCandidate _).of_eq (left_unwindTo (-1) _)
    clear_value step
    cases step with
    | error e =>
      cases h
      exact hstep
    | ok after =>
      simp only at h
      split at h
      · cases h
      · exact (ih h).mono hstep

end Stream

/-- The fault at which the tokens of a text end is a fault of that text. -/
theorem faulty_of_tokens {t : Text} {e : Error} (h : (tokens t).2 = some e) : Faulty t e := by
  unfold tokens at h
  split at h
  · extract_lets s s' at h
    have hstart : s'.left <:+ t := by
      simp only [s']
      split
      · exact s.cursor.next_suffix
      · exact List.suffix_rfl
    exact (Stream.faulty_of_run h).mono hstart
  · cases h
    exact .inl rfl

end LineAssist.Yaml
