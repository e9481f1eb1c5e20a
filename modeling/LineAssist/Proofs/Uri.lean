import LineAssist.Proofs.Path
import LineAssist.Proofs.Text.Digits
import LineAssist.Proofs.Text.Utf8
import LineAssist.Uri
import Mathlib.Data.List.TakeWhile

/-!
# The URI of a path leads back to it

Each octet of a path is read back from what it is written as, and the octets of the whole path
together as the text that they came from. None of the characters that are written has a meaning in a
URI, so that all of it is found again behind an empty authority.

With its escapes read, the URI of a path is the path behind the scheme. That may be the URI of
another path, whose text has the escapes of the first one in it.
-/

namespace LineAssist.Uri

open Text (hexValue? encodeUtf8)

variable {p : Path} {t : Text} {c : Char}

/-- The characters that a path is written with. -/
def isWritten (c : Char) : Bool :=
  isPlain c || c == '%'

/-! ## Octets -/

theorem toNat_ofNat_ascii : ∀ n : Fin 128, (Char.ofNat n.val).toNat = n.val := by
  decide

theorem isWritten_digit : ∀ k : Fin 16, isWritten (k.val.digitChar.toUpper) = true := by
  decide

/-- An octet stands for itself, or it is written as its two digits. -/
theorem escapeOctet_cases (b : UInt8) :
    (b.toNat < 0x80 ∧ isPlain (Char.ofNat b.toNat) = true ∧
      escapeOctet b = [Char.ofNat b.toNat]) ∨
    escapeOctet b =
      ['%', (b.toNat / 16).digitChar.toUpper, (b.toNat % 16).digitChar.toUpper] := by
  rw [escapeOctet, Text.hex_octet b.toNat_lt]
  split
  case isTrue h =>
    rw [Bool.and_eq_true, decide_eq_true_eq] at h
    exact .inl ⟨h.1, h.2, rfl⟩
  case isFalse => exact .inr rfl

theorem isWritten_of_mem_escapeOctet {b : UInt8} (h : c ∈ escapeOctet b) : isWritten c = true := by
  have hb := b.toNat_lt
  rcases escapeOctet_cases b with ⟨-, hplain, hsame⟩ | hdigits
  · rw [hsame, List.mem_singleton] at h
    rw [h, isWritten, hplain, Bool.true_or]
  · rw [hdigits] at h
    rcases List.mem_cons.mp h with rfl | h
    · rfl
    · rw [List.mem_cons, List.mem_singleton] at h
      rcases h with rfl | rfl
      · exact isWritten_digit ⟨b.toNat / 16, by omega⟩
      · exact isWritten_digit ⟨b.toNat % 16, by omega⟩

theorem isWritten_of_mem_escape (h : c ∈ escape t) : isWritten c = true := by
  obtain ⟨b, -, hb⟩ := List.mem_flatMap.mp h
  exact isWritten_of_mem_escapeOctet hb

theorem ne_of_isWritten {d : Char} (hc : isWritten c = true) (hd : isWritten d = false) : c ≠ d := by
  rintro rfl
  cases hc.symm.trans hd

theorem unescapeFrom_ascii (octets : List UInt8) (hascii : c.toNat < 0x80) (hc : c ≠ '%')
    (rest : Text) :
    unescapeFrom octets (c :: rest) = unescapeFrom (UInt8.ofNat c.toNat :: octets) rest := by
  rw [unescapeFrom, if_pos hascii]
  exact hc

theorem unescapeFrom_escapeOctet (octets : List UInt8) (b : UInt8) (rest : Text) :
    unescapeFrom octets (escapeOctet b ++ rest) = unescapeFrom (b :: octets) rest := by
  have hb := b.toNat_lt
  rcases escapeOctet_cases b with ⟨hascii, hplain, hsame⟩ | hdigits
  · have hnat : (Char.ofNat b.toNat).toNat = b.toNat := toNat_ofNat_ascii ⟨b.toNat, hascii⟩
    have hpercent : Char.ofNat b.toNat ≠ '%' := by
      intro h
      rw [h] at hplain
      cases hplain
    rw [hsame, List.singleton_append, unescapeFrom_ascii octets (by rwa [hnat]) hpercent, hnat,
      UInt8.ofNat_toNat]
  · have hoctet : UInt8.ofNat (16 * (b.toNat / 16) + b.toNat % 16) = b := by
      rw [Nat.div_add_mod, UInt8.ofNat_toNat]
    rw [hdigits]
    change unescapeFrom octets ('%' :: _ :: _ :: rest) = _
    rw [unescapeFrom, Text.hexValue?_digitChar ⟨b.toNat / 16, by omega⟩,
      Text.hexValue?_digitChar ⟨b.toNat % 16, by omega⟩]
    dsimp only
    rw [hoctet]

theorem unescapeFrom_escaped (octets bs : List UInt8) :
    unescapeFrom octets (bs.flatMap escapeOctet) =
      Text.decodeUtf8Lossy (octets.reverse ++ bs) := by
  induction bs generalizing octets with
  | nil => rw [List.flatMap_nil, unescapeFrom, List.append_nil]
  | cons b bs ih =>
    rw [List.flatMap_cons, unescapeFrom_escapeOctet, ih, List.reverse_cons, List.append_assoc,
      List.singleton_append]

theorem unescapeFrom_append {s : Text} (hs : ∀ c ∈ s, c.toNat < 0x80 ∧ c ≠ '%')
    (octets : List UInt8) (rest : Text) :
    unescapeFrom octets (s ++ rest) = unescapeFrom ((encodeUtf8 s).reverse ++ octets) rest := by
  induction s generalizing octets with
  | nil => rfl
  | cons c s ih =>
    obtain ⟨⟨hascii, hc⟩, hrest⟩ := List.forall_mem_cons.mp hs
    have hoctet : Text.utf8Octets c = [UInt8.ofNat c.toNat] := if_pos (Nat.le_of_lt_succ hascii)
    have hoctets : encodeUtf8 (c :: s) = UInt8.ofNat c.toNat :: encodeUtf8 s := by
      rw [encodeUtf8, List.flatMap_cons, hoctet, List.singleton_append, encodeUtf8]
    rw [List.cons_append, unescapeFrom_ascii octets hascii hc, ih hrest, hoctets, List.reverse_cons,
      List.append_assoc, List.singleton_append]

/-- What stands for itself is read as it is, in front of what has been escaped. -/
theorem unescape_append_escape {s : Text} (hs : ∀ c ∈ s, c.toNat < 0x80 ∧ c ≠ '%') (t : Text) :
    unescape (s ++ escape t) = s ++ t := by
  rw [unescape, unescapeFrom_append hs, escape, unescapeFrom_escaped, List.append_nil,
    List.reverse_reverse, encodeUtf8, encodeUtf8, ← List.flatMap_append]
  exact Text.decodeUtf8Lossy_encodeUtf8 (s ++ t)

theorem unescape_escape (t : Text) : unescape (escape t) = t :=
  unescape_append_escape (List.forall_mem_nil _) t

/-- With its escapes read, the URI of a path is the text of the path behind the scheme. -/
theorem unescape_ofPath (p : Path) : unescape (ofPath p) = "file://".toList ++ p.text := by
  have hscheme : ("file://".toList.all fun c => c.toNat < 0x80 ∧ c ≠ '%') = true := by decide
  exact unescape_append_escape
    (fun c hc => of_decide_eq_true (List.all_eq_true.mp hscheme c hc)) p.text

/-- The URI of a path reads like the one of another path if its text is how that one is written. -/
theorem unescape_ofPath_eq_iff {q : Path} :
    unescape (ofPath q) = ofPath p ↔ q.text = escape p.text := by
  rw [unescape_ofPath]
  exact List.append_right_inj _

/-! ## Parts -/

theorem head?_escape (h : t.head? = some '/') : (escape t).head? = some '/' := by
  obtain ⟨rest, rfl⟩ := List.head?_eq_some_iff.mp h
  rw [escape, encodeUtf8, List.flatMap_cons, List.flatMap_append]
  rfl

/-- No character of the URI of a path is left out. -/
theorem filter_ofPath (p : Path) :
    (((ofPath p).dropWhile fun c => c.toNat ≤ 0x20).filter
      fun c => !(c == '\t' || c == '\r' || c == '\n')) = ofPath p := by
  have hfirst : (ofPath p).dropWhile (fun c => c.toNat ≤ 0x20) = ofPath p :=
    List.dropWhile_cons_of_neg (by decide)
  have hkept : ∀ c ∈ ofPath p, (!(c == '\t' || c == '\r' || c == '\n')) = true := by
    intro c hc
    rcases List.mem_append.mp hc with hc | hc
    · have hscheme : ("file://".toList.all fun c =>
          !(c == '\t' || c == '\r' || c == '\n')) = true := by decide
      exact List.all_eq_true.mp hscheme c hc
    · have hwritten := isWritten_of_mem_escape hc
      simp [ne_of_isWritten hwritten (d := '\t') rfl, ne_of_isWritten hwritten (d := '\r') rfl,
        ne_of_isWritten hwritten (d := '\n') rfl]
  rw [hfirst, List.filter_eq_self.mpr hkept]

theorem splitScheme_ofPath (p : Path) :
    splitScheme (ofPath p) = ("file".toList, '/' :: '/' :: escape p.text) := by
  have hscheme : ':' ∉ "file".toList := by decide
  have hcut : Text.cut? ':' (ofPath p) = some ("file".toList, '/' :: '/' :: escape p.text) :=
    Text.cut?_append hscheme _
  rw [splitScheme, hcut]
  rfl

theorem splitAuthority_escape (h : t.head? = some '/') :
    splitAuthority ('/' :: '/' :: escape t) = ([], escape t) := by
  obtain ⟨rest, hrest⟩ := List.head?_eq_some_iff.mp (head?_escape h)
  rw [splitAuthority, List.span_eq_takeWhile_dropWhile, hrest]
  rfl

theorem parts?_ofPath (h : p.isAbsolute = true) :
    parts? (ofPath p) = some ⟨"file".toList, [], escape p.text⟩ := by
  have hpath : (escape p.text).takeWhile (fun c => !(c == '#' || c == '?')) = escape p.text := by
    refine List.takeWhile_eq_self_iff.mpr fun c hc => ?_
    have hwritten := isWritten_of_mem_escape hc
    simp [ne_of_isWritten hwritten (d := '#') rfl, ne_of_isWritten hwritten (d := '?') rfl]
  rw [parts?]
  dsimp only
  rw [filter_ofPath, splitScheme_ofPath]
  dsimp only
  rw [splitAuthority_escape (Path.head?_text h)]
  dsimp only
  rw [hpath]
  rfl

/-- The URI of an absolute path leads back to it, whatever characters the path holds. -/
theorem path?_ofPath (hnormal : p.IsNormal) (h : p.isAbsolute = true) :
    path? (ofPath p) = some p := by
  rw [path?, parts?_ofPath h, Option.map_some, if_pos rfl, unescape_escape,
    Path.ofText_text hnormal]

end LineAssist.Uri
