import LineAssist.Editor.OpenDocuments
import LineAssist.Proofs.Entries
import LineAssist.Proofs.Files.Writing
import LineAssist.Proofs.Uri

/-!
# What the side view writes

The URI that a side view is opened with leads back to its path, whatever characters the path holds.
New content is written there, unless a document is kept under that URI: then the editor is asked for
an edit, and no file is written. A document that is kept under the URI need not be the side view,
since documents are kept under their URIs with the escapes read, and the URI of a side view is looked
up with its escapes. That of another file may read like it.
-/

namespace LineAssist.Editor

variable {events : List DocumentEvent} {uri : Text}

/-! ## Open documents -/

theorem hasOpen_shown (events : List DocumentEvent) (uri content : Text) :
    HasOpen (events ++ [.shown uri content]) uri :=
  ⟨events, content, [], rfl, List.not_mem_nil⟩

theorem HasOpen.concat (h : HasOpen events uri) {e : DocumentEvent} (he : e ≠ .closed uri) :
    HasOpen (events ++ [e]) uri := by
  obtain ⟨before, content, later, rfl, hlater⟩ := h
  refine ⟨before, content, later ++ [e], by simp, ?_⟩
  rw [List.mem_append, not_or, List.mem_singleton]
  exact ⟨hlater, Ne.symm he⟩

theorem HasOpen.exists_shown (h : HasOpen events uri) : ∃ content, .shown uri content ∈ events := by
  obtain ⟨before, content, later, rfl, -⟩ := h
  exact ⟨content, List.mem_append_right before List.mem_cons_self⟩

namespace Desk

variable {d opened : Desk} {key content view : Text} {p : Path}

/-! ## What is kept -/

theorem mem_kept_shown (h : key ∈ (d.after (.shown uri content)).kept) :
    key = Uri.unescape uri ∨ key ∈ d.kept := by
  rw [after, keep] at h
  split at h
  case h_1 desk hkept =>
    split at hkept
    · cases hkept
    · cases hkept
      exact mem_keys_putEntry.mp h
  case h_2 => exact .inr h

theorem mem_kept_closed (h : key ∈ (d.after (.closed uri)).kept) :
    key ≠ Uri.unescape uri ∧ key ∈ d.kept := by
  obtain ⟨entry, hentry, rfl⟩ := List.mem_map.mp h
  obtain ⟨hentry, hkey⟩ := List.mem_filter.mp hentry
  exact ⟨of_decide_eq_true hkey, List.mem_map_of_mem hentry⟩

theorem afterAll_append (d : Desk) (events later : List DocumentEvent) :
    d.afterAll (events ++ later) = (d.afterAll events).afterAll later := by
  rw [afterAll, List.foldl_append]
  rfl

theorem afterAll_concat (d : Desk) (events : List DocumentEvent) (e : DocumentEvent) :
    d.afterAll (events ++ [e]) = (d.afterAll events).after e :=
  afterAll_append d events [e]

/-- Whatever is kept is a document that the editor has open, under its URI with the escapes read. -/
theorem exists_open_of_kept (hnone : d.kept = []) (h : key ∈ (d.afterAll events).kept) :
    ∃ uri, HasOpen events uri ∧ Uri.unescape uri = key := by
  induction events using List.reverseRecOn with
  | nil =>
    change key ∈ d.kept at h
    rw [hnone] at h
    cases h
  | append_singleton events e ih =>
    rw [afterAll_concat] at h
    cases e with
    | shown uri content =>
      rcases mem_kept_shown h with rfl | h
      · exact ⟨uri, hasOpen_shown events uri content, rfl⟩
      · obtain ⟨other, hopen, hkey⟩ := ih h
        exact ⟨other, hopen.concat nofun, hkey⟩
    | closed uri =>
      obtain ⟨hkey, h⟩ := mem_kept_closed h
      obtain ⟨other, hopen, rfl⟩ := ih h
      refine ⟨other, hopen.concat ?_, rfl⟩
      rintro ⟨⟩
      exact hkey rfl

/-- What is kept after an event depends on the documents alone. -/
theorem documents_after {d' : Desk} (h : d.documents = d'.documents) (e : DocumentEvent) :
    (d.after e).documents = (d'.after e).documents := by
  cases e with
  | shown uri content =>
    rw [after, after, keep, keep]
    cases Uri.filePath? uri with
    | none => exact h
    | some path => exact congrArg (putEntry (Uri.unescape uri) content) h
  | closed uri => exact congrArg (List.filter _) h

theorem documents_afterAll {d' : Desk} (h : d.documents = d'.documents)
    (events : List DocumentEvent) :
    (d.afterAll events).documents = (d'.afterAll events).documents := by
  induction events generalizing d d' with
  | nil => exact h
  | cons e events ih => exact ih (documents_after h e)

/-- A document with the URI of a path is kept. -/
theorem after_shown_ofPath (d : Desk) (habsolute : p.isAbsolute = true) (content : Text) :
    d.after (.shown (Uri.ofPath p) content) =
      { d with documents := putEntry (Uri.unescape (Uri.ofPath p)) content d.documents } := by
  rw [after, keep, Uri.filePath?, Uri.parts?_ofPath habsolute]
  rfl

/-! ## Opening the view -/

/-- The view is the URI of its path, and its file is there and empty. -/
theorem eq_of_openView (h : d.openView p = (opened, .ok view)) :
    view = Uri.ofPath p ∧ opened.documents = d.documents ∧ opened.files.read p = .ok [] := by
  rw [openView] at h
  dsimp only at h
  split at h
  case h_1 => cases h
  case h_2 files hemptied =>
    obtain ⟨made, -, hwrite⟩ := ok_of_bind hemptied
    cases h
    exact ⟨rfl, rfl, (Files.rewritten_of_write hwrite).content⟩

/-! ## Writing the view -/

theorem writeView_of_not_kept (h : view ∉ d.kept) (refusal : Option Text) (content : Text) :
    d.writeView refusal view content = d.writeFile view content := by
  rw [writeView, lookup_eq_none h]

theorem files_writeView_of_kept (h : view ∈ d.kept) (refusal : Option Text) (content : Text) :
    (d.writeView refusal view content).1.files = d.files := by
  obtain ⟨shown, hshown⟩ := Option.isSome_iff_exists.mp (isSome_lookup_iff.mpr h)
  rw [writeView, hshown]
  cases refusal <;> rfl

theorem writeFile_ofPath (hnormal : p.IsNormal) (habsolute : p.isAbsolute = true) {files : Files}
    (h : d.files.write p (Text.encodeUtf8 content) = .ok files) :
    d.writeFile (Uri.ofPath p) content = ({ d with files := files }, .ok ()) := by
  rw [writeFile, Uri.path?_ofPath hnormal habsolute]
  dsimp only
  rw [h]

theorem openView_eq {made emptied : Files} (hmade : d.files.ensureDirectories p.parent = .ok made)
    (hemptied : made.write p [] = .ok emptied) :
    d.openView p =
      ({ d with files := emptied }.tell (.shows (Uri.ofPath p) none), .ok (Uri.ofPath p)) := by
  have hboth : (do (← d.files.ensureDirectories p.parent).write p []) = .ok emptied :=
    ok_bind hmade hemptied
  rw [openView, hboth]

/-- The handle of a side view leads to its path, whatever the path is. As long as the file is there,
new content is written to it and nothing else is changed, unless a document is kept under the
handle. Then no file is changed; but such a document is only some document that the editor has open
and whose URI is the handle once its escapes are read. -/
theorem replace_writes_unless_kept {t : Text} (habsolute : (Path.ofText t).isAbsolute = true)
    {files : Files} {told : List Notice} {history : List DocumentEvent}
    (hopen : ((Desk.mk files [] told).afterAll history).openView (Path.ofText t) =
      (opened, .ok view)) :
    Uri.path? view = some (Path.ofText t) ∧ opened.files.read (Path.ofText t) = .ok [] ∧
    ∀ (since : List DocumentEvent) (now : Files) (old : List UInt8),
      now.read (Path.ofText t) = .ok old → ∀ (refusal : Option Text) (content : Text),
      let d := { opened.afterAll since with files := now }
      (view ∉ d.kept → ∃ written,
        d.writeView refusal view content = ({ d with files := written }, .ok ()) ∧
          now.Rewritten (Path.ofText t) (Text.encodeUtf8 content) written) ∧
      (view ∈ d.kept → (d.writeView refusal view content).1.files = now ∧
        ∃ uri, HasOpen (history ++ since) uri ∧ Uri.unescape uri = view) := by
  have hnormal := Path.isNormal_ofText t
  obtain ⟨rfl, hdocuments, hempty⟩ := eq_of_openView hopen
  refine ⟨Uri.path?_ofPath hnormal habsolute, hempty, ?_⟩
  intro since now old hold refusal content d
  refine ⟨fun hfree => ?_, fun hkept => ⟨files_writeView_of_kept hkept refusal content, ?_⟩⟩
  · obtain ⟨written, hwritten⟩ := Files.exists_write_of_read hold (Text.encodeUtf8 content)
    refine ⟨written, ?_, Files.rewritten_of_write hwritten⟩
    rw [writeView_of_not_kept hfree]
    exact writeFile_ofPath hnormal habsolute hwritten
  · refine exists_open_of_kept (d := Desk.mk files [] told) rfl ?_
    rw [afterAll_append, kept, ← documents_afterAll hdocuments since]
    exact hkept

/-! ## A side view beside another document -/

/-- A machine with a directory for temporary files and nothing else. -/
def temporary : Files where
  entries := [(["tmp".toList], .directory)]
  current := []

/-- An editor has one document open, that of a file. -/
def atWork (q : Path) : Desk :=
  (Desk.mk temporary [] []).afterAll [.shown (Uri.ofPath q) "x".toList]

theorem kept_atWork {q : Path} (hq : q.isAbsolute = true) :
    (atWork q).kept = [Uri.unescape (Uri.ofPath q)] := by
  rw [atWork, afterAll, List.foldl_cons, after_shown_ofPath _ hq]
  rfl

theorem openView_atWork {q : Path} (hq : q.isAbsolute = true)
    (hparent : p.parent = ⟨.root, ["tmp".toList]⟩) {emptied : Files}
    (hemptied : temporary.write p [] = .ok emptied) :
    ∃ opened, (atWork q).openView p = (opened, .ok (Uri.ofPath p)) ∧
      opened.kept = (atWork q).kept ∧ opened.files = emptied := by
  have hfiles : (atWork q).files = temporary := by
    rw [atWork, afterAll, List.foldl_cons, after_shown_ofPath _ hq]
    rfl
  have hmade : (atWork q).files.ensureDirectories p.parent = .ok temporary := by
    rw [hfiles, hparent]
    exact Files.ensureDirectories_of_ensureDirectory rfl
  exact ⟨_, openView_eq hmade hemptied, rfl, rfl⟩

/-- The path holds an escape, delimiters of URIs and a character beyond ASCII. -/
theorem replaced_at_escaped_path :
    let path := Path.ofText "/tmp/100%25?;é#.json".toList
    let history := [DocumentEvent.shown (Uri.ofPath (Path.ofText "/tmp/c".toList)) "x".toList]
    path.isAbsolute = true ∧ ∃ opened view written,
      ((Desk.mk temporary [] []).afterAll history).openView path = (opened, .ok view) ∧
      Uri.path? view = some path ∧ opened.files.read path = .ok [] ∧ view ∉ opened.kept ∧
      opened.writeView none view "[1]".toList = ({ opened with files := written }, .ok ()) ∧
      opened.files.Rewritten path (Text.encodeUtf8 "[1]".toList) written := by
  intro path history
  have hother : (Path.ofText "/tmp/c".toList).isAbsolute = true := by decide
  have habsolute : path.isAbsolute = true := by decide
  obtain ⟨opened, hopen, hkept, -⟩ := openView_atWork (p := path) hother (by decide) rfl
  have hfree : Uri.ofPath path ∉ opened.kept := by
    rw [hkept, kept_atWork hother, List.mem_singleton, eq_comm, Uri.unescape_ofPath_eq_iff]
    decide +kernel
  obtain ⟨hpath, hempty, hreplace⟩ := replace_writes_unless_kept habsolute hopen
  obtain ⟨written, hwritten, hrewritten⟩ :=
    (hreplace [] opened.files [] hempty none "[1]".toList).1 hfree
  exact ⟨habsolute, opened, _, written, hopen, hpath, hempty, hfree, hwritten, hrewritten⟩

/-- Only another file is open in the editor, whose name is how that of the side view is written in a
URI. The new content is handed to the editor, and the file of the side view stays empty. -/
theorem replace_mistakes_other_document :
    let path := Path.ofText "/tmp/a b.json".toList
    let other := "file:///tmp/a%2520b.json".toList
    let history := [DocumentEvent.shown other "x".toList]
    Uri.path? other = some (Path.ofText "/tmp/a%20b.json".toList) ∧ ∃ opened view,
      ((Desk.mk temporary [] []).afterAll history).openView path = (opened, .ok view) ∧
      ¬HasOpen history view ∧
      (opened.writeView none view "1".toList).2 = .ok () ∧
      (opened.writeView none view "1".toList).1.files.read path = .ok [] := by
  intro path other history
  let q := Path.ofText "/tmp/a%20b.json".toList
  have hother : other = Uri.ofPath q := by decide +kernel
  have habsolute : q.isAbsolute = true := by decide
  have hreads : Uri.unescape (Uri.ofPath q) = Uri.ofPath path :=
    Uri.unescape_ofPath_eq_iff.mpr (by decide +kernel)
  obtain ⟨opened, hopen, hkept, hfiles⟩ := openView_atWork (p := path) habsolute (by decide) rfl
  have hview : Uri.ofPath path ∈ opened.kept := by
    rw [hkept, kept_atWork habsolute, hreads]
    exact List.mem_singleton_self _
  refine ⟨?_, opened, Uri.ofPath path, ?_, ?_, ?_, ?_⟩
  · rw [hother]
    exact Uri.path?_ofPath (Path.isNormal_ofText _) habsolute
  · rw [← hopen, atWork, ← hother]
  · intro hopened
    obtain ⟨content, hshown⟩ := hopened.exists_shown
    obtain ⟨hsame, -⟩ := DocumentEvent.shown.inj (List.mem_singleton.mp hshown)
    revert hsame
    decide +kernel
  · obtain ⟨shown, hshown⟩ := Option.isSome_iff_exists.mp (isSome_lookup_iff.mpr hview)
    rw [writeView, hshown]
  · rw [files_writeView_of_kept hview]
    exact (eq_of_openView hopen).2.2

end Desk

end LineAssist.Editor
