import LineAssist.Proofs.Computation
import LineAssist.Proofs.Files
import LineAssist.Proofs.Number.Overflow
import LineAssist.Settings
import Mathlib.Data.List.TakeWhile

/-!
# Settings from any configuration

A configuration that cannot be opened or is malformed counts as an empty one, and a setting whose
value cannot be used keeps its default. So there are settings for every configuration, apart from
five faults that are not caught: octets that are no UTF-8, a null character in the path of the file,
a decimal integer with more digits than an integer may have, a path below a home directory that is
not known, and an interval beyond the finite numbers.
-/

namespace LineAssist

/-! ## Texts and paths -/

theorem Text.trim_eq_nil_iff {t : Text} : Text.trim t = [] ↔ ∀ c ∈ t, Text.isBlank c = true := by
  rw [Text.trim, Text.trimEnd, List.reverse_eq_nil_iff, List.dropWhile_eq_nil_iff]
  simp only [List.mem_reverse]
  constructor
  · intro h c hc
    rw [← List.takeWhile_append_dropWhile (p := Text.isBlank) (l := t)] at hc
    rcases List.mem_append.mp hc with hc | hc
    · exact List.mem_takeWhile_imp hc
    · exact h c hc
  · intro h c hc
    exact h c ((List.dropWhile_suffix Text.isBlank).subset hc)

/-- The path starts at a home directory that is not known, or that is itself below one. -/
def Path.LacksHome (homes : Homes) (p : Path) : Prop :=
  p.anchor = .here ∧ ∃ user rest, p.names = ('~' :: user) :: rest ∧
    ∀ home, Path.homeOf? homes user = some home → home.head? = some '~'

theorem Path.expandHome?_eq_none_iff {homes : Homes} {p : Path} :
    p.expandHome? homes = none ↔ p.LacksHome homes := by
  unfold Path.expandHome? Path.LacksHome
  split
  case h_1 user rest hanchor hnames =>
    have hlacks : (p.anchor = .here ∧ ∃ user rest, p.names = ('~' :: user) :: rest ∧
        ∀ home, Path.homeOf? homes user = some home → home.head? = some '~') ↔
          ∀ home, Path.homeOf? homes user = some home → home.head? = some '~' := by
      simp [hanchor, hnames]
    rw [hlacks]
    split
    case h_1 hhome => simp [hhome]
    case h_2 home hknown hhome =>
      refine iff_of_false nofun fun h => ?_
      obtain ⟨more, hmore⟩ := List.head?_eq_some_iff.mp (h home hhome)
      exact hknown more hmore
    case h_3 hhome => simp [hhome]
  case h_2 hother =>
    refine iff_of_false nofun ?_
    rintro ⟨hanchor, user, rest, hnames, -⟩
    exact hother user rest hanchor hnames

namespace Settings

/-! ## What values give -/

/-- A text that is not blank, without the white space around it. -/
inductive GivesText : Toml → Text → Prop
  | text {t : Text} (written : ¬∀ c ∈ t, Text.isBlank c = true) : GivesText (.text t) (Text.trim t)

inductive GivesFlag : Toml → Bool → Prop
  | bool (b : Bool) : GivesFlag (.bool b) b
  | int (i : Int) : GivesFlag (.int i) (i != 0)
  | text (t : Text) : GivesFlag (.text t) (isYes t)

inductive GivesIndent : Toml → Nat → Prop
  | int (n : Nat) : GivesIndent (.int n) n

inductive GivesInterval : Toml → Binary64 → Prop
  | int {i : Int} (positive : 0 < i) : GivesInterval (.int i) (Binary64.ofInt i)
  | float {x : Binary64} (positive : isPositive x = true) : GivesInterval (.float x) x
  | text {t : Text} {x : Binary64} (read : Number.readBinary64? t = some x)
      (positive : isPositive x = true) : GivesInterval (.text t) x

/-- A path with its home directory, below the base if it is relative. -/
inductive GivesPath (homes : Homes) (base : Path) : Toml → Path → Prop
  | path {v : Toml} {t : Text} {p : Path} (gives : GivesText v t)
      (home : (Path.ofText t).expandHome? homes = some p) : GivesPath homes base v (base.under p)

/-- What may be left out. -/
def Optionally {α : Type} (gives : Toml → α → Prop) (v : Toml) (a? : Option α) : Prop :=
  ∃ a, a? = some a ∧ gives v a

/-- A setting is what the value under its key gives. It is its default if there is no value, or one
that gives nothing. -/
def Chosen {α : Type} (gives : Toml → α → Prop) (table : Toml.Table) (key : String)
    (default chosen : α) : Prop :=
  (∃ v, lookup key.toList table = some v ∧ gives v chosen) ∨
    (∀ v, lookup key.toList table = some v → ∀ a, ¬gives v a) ∧ chosen = default

theorem chosen_default {α : Type} {gives : Toml → α → Prop} {table : Toml.Table} {key : String}
    {v : Toml} (hv : lookup key.toList table = some v) (hnone : ∀ a, ¬gives v a) (default : α) :
    Chosen gives table key default default := by
  refine .inr ⟨fun w hw => ?_, rfl⟩
  cases hv.symm.trans hw
  exact hnone

theorem chosen_getD {α : Type} {gives : Toml → α → Prop} {f : Option Toml → Option α}
    (hf : ∀ v? a, f v? = some a ↔ ∃ v, v? = some v ∧ gives v a) (table : Toml.Table) (key : String)
    (default : α) :
    Chosen gives table key default ((f (lookup key.toList table)).getD default) := by
  cases hvalue : f (lookup key.toList table) with
  | none =>
    refine .inr ⟨fun v hv a hgives => ?_, rfl⟩
    rw [(hf _ a).mpr ⟨v, hv, hgives⟩] at hvalue
    cases hvalue
  | some a => exact .inl ((hf _ a).mp hvalue)

theorem chosen_optionally {α : Type} {gives : Toml → α → Prop} {table : Toml.Table} {key : String}
    {a? : Option α}
    (ha : ∀ a, a? = some a ↔ ∃ v, lookup key.toList table = some v ∧ gives v a) :
    Chosen (Optionally gives) table key none a? := by
  cases a? with
  | none =>
    refine .inr ⟨?_, rfl⟩
    rintro v hv a? ⟨a, -, hgives⟩
    cases (ha a).mpr ⟨v, hv, hgives⟩
  | some a =>
    obtain ⟨v, hv, hgives⟩ := (ha a).mp rfl
    exact .inl ⟨v, hv, a, rfl, hgives⟩

theorem usableText_eq_some_iff (v? : Option Toml) (t : Text) :
    usableText v? = some t ↔ ∃ v, v? = some v ∧ GivesText v t := by
  constructor
  · intro h
    unfold usableText at h
    split at h
    case h_1 t =>
      dsimp only at h
      split at h
      · cases h
      · rename_i hwritten
        cases h
        refine ⟨_, rfl, .text fun hblank => hwritten ?_⟩
        rw [Text.trim_eq_nil_iff.mpr hblank]
        rfl
    case h_2 => cases h
  · rintro ⟨v, rfl, ⟨hwritten⟩⟩
    have htrim : (Text.trim _).isEmpty = false :=
      List.isEmpty_eq_false_iff.mpr (mt Text.trim_eq_nil_iff.mp hwritten)
    simp only [usableText, htrim, Bool.false_eq_true, if_false]

theorem usableIndent_eq_some_iff (v? : Option Toml) (n : Nat) :
    usableIndent v? = some n ↔ ∃ v, v? = some v ∧ GivesIndent v n := by
  constructor
  · intro h
    unfold usableIndent at h
    split at h
    case h_1 i =>
      split at h
      case isTrue hi =>
        cases h
        obtain ⟨n, rfl⟩ := Int.eq_ofNat_of_zero_le hi
        exact ⟨_, rfl, .int n⟩
      case isFalse => cases h
    case h_2 => cases h
  · rintro ⟨v, rfl, ⟨⟩⟩
    simp [usableIndent]

theorem chosen_flag (table : Toml.Table) (key : String) :
    Chosen GivesFlag table key false (flag (lookup key.toList table)) := by
  unfold flag
  split
  case h_1 b hv => exact .inl ⟨_, hv, .bool b⟩
  case h_2 i hv => exact .inl ⟨_, hv, .int i⟩
  case h_3 t hv => exact .inl ⟨_, hv, .text t⟩
  case h_4 hbool hint htext =>
    refine .inr ⟨fun v hv b hgives => ?_, rfl⟩
    cases hgives with
    | bool b => exact hbool b hv
    | int i => exact hint i hv
    | text t => exact htext t hv

/-! ## Paths and intervals -/

/-- The value under the key is a path that starts at a home directory that is not known. -/
def LosesHome (homes : Homes) (table : Toml.Table) (key : String) : Prop :=
  ∃ v t, lookup key.toList table = some v ∧ GivesText v t ∧ (Path.ofText t).LacksHome homes

/-- The value under the key is an integer beyond the finite numbers. -/
def Overflows (table : Toml.Table) (key : String) : Prop :=
  ∃ i : Int, lookup key.toList table = some (.int i) ∧ 0 < i ∧ Binary64.leastInfinite ≤ i.natAbs

theorem yields_resolvePath? (homes : Homes) (base : Path) (table : Toml.Table) (key : String) :
    Yields (fun e => e = .unknownHome ∧ LosesHome homes table key)
      (fun p? => Chosen (Optionally (GivesPath homes base)) table key none p? ∧
        ¬LosesHome homes table key)
      (resolvePath? homes base (usableText (lookup key.toList table))) := by
  have htext := usableText_eq_some_iff (lookup key.toList table)
  cases hused : usableText (lookup key.toList table) with
  | none =>
    rw [hused] at htext
    have hnone : ∀ v t, lookup key.toList table = some v → ¬GivesText v t := fun v t hv hgives =>
      nomatch (htext t).mpr ⟨v, hv, hgives⟩
    refine ⟨chosen_optionally fun p => iff_of_false nofun ?_, ?_⟩
    · rintro ⟨v, hv, ⟨hgives, -⟩⟩
      exact hnone v _ hv hgives
    · rintro ⟨v, t, hv, hgives, -⟩
      exact hnone v t hv hgives
  | some t =>
    rw [hused] at htext
    have honly : ∀ v t', lookup key.toList table = some v → GivesText v t' → t' = t :=
      fun v t' hv hgives => (Option.some.inj ((htext t').mpr ⟨v, hv, hgives⟩)).symm
    obtain ⟨v, hv, hgives⟩ := (htext t).mp rfl
    rw [resolvePath?, resolvePath]
    cases hhome : (Path.ofText t).expandHome? homes with
    | none => exact ⟨rfl, v, t, hv, hgives, Path.expandHome?_eq_none_iff.mp hhome⟩
    | some p =>
      refine ⟨.inl ⟨v, hv, base.under p, rfl, .path hgives hhome⟩, ?_⟩
      rintro ⟨v', t', hv', hgives', hlost⟩
      rw [honly v' t' hv' hgives', ← Path.expandHome?_eq_none_iff, hhome] at hlost
      cases hlost

theorem yields_usableInterval (table : Toml.Table) (key : String) (default : Binary64) :
    Yields (fun e => e = .overflow ∧ Overflows table key)
      (fun x? => Chosen GivesInterval table key default (x?.getD default) ∧ ¬Overflows table key)
      (usableInterval (lookup key.toList table)) := by
  have hfinite {v : Toml} (hv : lookup key.toList table = some v)
      (hint : ∀ i, v ≠ .int i) : ¬Overflows table key := by
    rintro ⟨i, hi, -⟩
    cases hv.symm.trans hi
    exact hint i rfl
  unfold usableInterval
  split
  case h_1 i hv =>
    split
    case isTrue hi =>
      split
      case h_1 negative hinfinite =>
        exact ⟨rfl, i, hv, hi, Binary64.ofInt_infinite_iff.mp ⟨negative, hinfinite⟩⟩
      case h_2 x hx =>
        refine ⟨.inl ⟨_, hv, .int hi⟩, ?_⟩
        rintro ⟨i', hi', -, hlarge⟩
        cases hv.symm.trans hi'
        obtain ⟨negative, hinfinite⟩ := Binary64.ofInt_infinite_iff.mpr hlarge
        exact hx negative hinfinite
    case isFalse hi =>
      refine ⟨chosen_default hv ?_ _, ?_⟩
      · rintro x ⟨⟩
        exact hi ‹_›
      · rintro ⟨i', hi', hpos, -⟩
        cases hv.symm.trans hi'
        exact hi hpos
  case h_2 x hv =>
    refine ⟨?_, hfinite hv nofun⟩
    split
    case isTrue hpos => exact .inl ⟨_, hv, .float hpos⟩
    case isFalse hpos =>
      refine chosen_default hv ?_ _
      rintro y ⟨⟩
      exact hpos ‹_›
  case h_3 t hv =>
    refine ⟨?_, hfinite hv nofun⟩
    cases hused : (Number.readBinary64? t).filter isPositive with
    | none =>
      refine chosen_default hv ?_ _
      rintro x (_ | _ | ⟨hread, hpos⟩)
      exact absurd ((Option.filter_eq_some_iff.mpr ⟨hread, hpos⟩).symm.trans hused) nofun
    | some x =>
      obtain ⟨hread, hpos⟩ := Option.filter_eq_some_iff.mp hused
      exact .inl ⟨_, hv, .text hread hpos⟩
  case h_4 hint hfloat htext =>
    refine ⟨.inr ⟨?_, rfl⟩, ?_⟩
    · rintro v hv x (_ | _ | _)
      · exact hint _ hv
      · exact hfloat _ hv
      · exact htext _ hv
    · rintro ⟨i, hi, -⟩
      exact hint i hi

/-! ## Sections -/

/-- The tables that the settings come from. -/
structure Sections where
  tool : Toml.Table
  liveQuery : Toml.Table
  status : Toml.Table

/-- The sections of a configuration, with given values over the first one. -/
def sectionsOf (given : List (Text × Option Toml)) (config : Toml.Table) : Sections where
  tool := merge given (section_ "tool" config)
  liveQuery := section_ "live_query" config
  status := section_ "status" config

/-- Each setting is what the sections give for it, or its default. -/
structure Follows (homes : Homes) (base : Path) (c : Sections) (s : Settings) : Prop where
  toolName : Chosen GivesText c.tool "name" defaults.toolName s.toolName
  languageId : Chosen GivesText c.tool "language_id" defaults.languageId s.languageId
  installUrl : Chosen GivesText c.tool "install_url" defaults.installUrl s.installUrl
  catalogPath : Chosen (Optionally (GivesPath homes base)) c.tool "catalog" none s.catalogPath
  statusCommand : Chosen (Optionally GivesText) c.tool "status_command" none s.statusCommand
  liveQueryEnabled : Chosen GivesFlag c.liveQuery "enabled" false s.liveQueryEnabled
  resultPath :
    Chosen (Optionally (GivesPath homes base)) c.liveQuery "result_path" none s.resultPath
  resultIndent : Chosen GivesIndent c.liveQuery "indent" defaults.resultIndent s.resultIndent
  statusInterval :
    Chosen GivesInterval c.status "interval_seconds" defaults.statusInterval s.statusInterval

/-- What the sections hold that is not caught. -/
inductive Sections.Fault (homes : Homes) (c : Sections) : SettingsFault → Prop
  | catalog (lost : LosesHome homes c.tool "catalog") : Fault homes c .unknownHome
  | resultPath (lost : LosesHome homes c.liveQuery "result_path") : Fault homes c .unknownHome
  | interval (large : Overflows c.status "interval_seconds") : Fault homes c .overflow

theorem yields_ofSections (homes : Homes) (base : Path) (c : Sections) :
    Yields (c.Fault homes) (fun s => Follows homes base c s ∧ ∀ e, ¬c.Fault homes e)
      (ofSections homes base c.tool c.liveQuery c.status) := by
  refine ((yields_resolvePath? homes base c.tool "catalog").imp ?_ fun _ => id).bind
    fun catalogPath ⟨hcatalog, hcatalogHome⟩ => ?_
  · rintro e ⟨rfl, hlost⟩
    exact .catalog hlost
  refine ((yields_resolvePath? homes base c.liveQuery "result_path").imp ?_ fun _ => id).bind
    fun resultPath ⟨hresult, hresultHome⟩ => ?_
  · rintro e ⟨rfl, hlost⟩
    exact .resultPath hlost
  refine ((yields_usableInterval c.status "interval_seconds" defaults.statusInterval).imp ?_
    fun _ => id).bind fun interval ⟨hinterval, hfinite⟩ => ?_
  · rintro e ⟨rfl, hlarge⟩
    exact .interval hlarge
  refine ⟨{
    toolName := chosen_getD usableText_eq_some_iff _ _ _
    languageId := chosen_getD usableText_eq_some_iff _ _ _
    installUrl := chosen_getD usableText_eq_some_iff _ _ _
    catalogPath := hcatalog
    statusCommand := chosen_optionally (usableText_eq_some_iff _)
    liveQueryEnabled := chosen_flag _ _
    resultPath := hresult
    resultIndent := chosen_getD usableIndent_eq_some_iff _ _ _
    statusInterval := hinterval }, ?_⟩
  rintro e (hlost | hlost | hlarge)
  · exact hcatalogHome hlost
  · exact hresultHome hlost
  · exact hfinite hlarge

/-- Values of all kinds that cannot be used. -/
example (homes : Homes) (base : Path) : ofSections homes base
    [("name".toList, .int 7), ("language_id".toList, .bool true), ("catalog".toList, .array []),
      ("status_command".toList, .text " ".toList)]
    [("enabled".toList, .float .nan), ("result_path".toList, .table []),
      ("indent".toList, .int (-1))]
    [("interval_seconds".toList, .text "soon".toList)] = .ok defaults := by
  with_unfolding_all rfl

/-! ## Files -/

/-- The table that a configuration file counts as. -/
inductive CountsAs (files : Files) (p : Path) : Toml.Table → Prop
  | written {t : Text} {config : Toml.Table} (file : files.readText p = .ok t)
      (table : Toml.read t = .ok config) : CountsAs files p config
  /-- A file that cannot be opened counts as an empty one. -/
  | unreadable {cause : FileFault.Cause} {path : Text}
      (file : files.readText p = .error (.file (.system cause path))) : CountsAs files p []
  | malformed {t : Text} (file : files.readText p = .ok t)
      (table : Toml.read t = .error .malformed) : CountsAs files p []

/-- What a configuration file is that is not caught. -/
inductive ConfigFault (files : Files) (p : Path) : SettingsFault → Prop
  | notUtf8 {octets : List UInt8} (file : files.read p = .ok octets)
      (undecodable : Text.decodeUtf8? octets = none) : ConfigFault files p .notUtf8
  | nullCharacter (path : '\x00' ∈ p.text) : ConfigFault files p .nullCharacter
  | longInteger {t : Text} (file : files.readText p = .ok t)
      (long : Toml.read t = .error .longInteger) : ConfigFault files p .longInteger

theorem yields_readConfig (files : Files) (p : Path) :
    Yields (ConfigFault files p)
      (fun config => CountsAs files p config ∧ ∀ e, ¬ConfigFault files p e)
      (readConfig files p) := by
  have hplain (hpath : files.readText p ≠ .error (.file .nullCharacter))
      (hutf8 : files.readText p ≠ .error .notUtf8)
      (hshort : ∀ t, files.readText p = .ok t → Toml.read t ≠ .error .longInteger) :
      ∀ e, ¬ConfigFault files p e := by
    rintro e (⟨hfile, hundecodable⟩ | hnull | ⟨hfile, hlong⟩)
    · exact hutf8 (Files.readText_eq_notUtf8_iff.mpr ⟨_, hfile, hundecodable⟩)
    · exact hpath (Files.readText_eq_nullCharacter_iff.mpr hnull)
    · exact hshort _ hfile hlong
  unfold readConfig
  split
  case h_1 hfile =>
    obtain ⟨octets, hread, hundecodable⟩ := Files.readText_eq_notUtf8_iff.mp hfile
    exact .notUtf8 hread hundecodable
  case h_2 hfile => exact .nullCharacter (Files.readText_eq_nullCharacter_iff.mp hfile)
  case h_3 cause path hfile =>
    exact ⟨.unreadable hfile, hplain (by simp [hfile]) (by simp [hfile]) (by simp [hfile])⟩
  case h_4 t hfile =>
    have htext : ∀ t', files.readText p = .ok t' → t' = t := fun t' h =>
      (Except.ok.inj (hfile.symm.trans h)).symm
    split
    case h_1 config hread =>
      refine ⟨.written hfile hread, hplain (by simp [hfile]) (by simp [hfile]) ?_⟩
      intro t' ht'
      rw [htext t' ht', hread]
      nofun
    case h_2 hread =>
      refine ⟨.malformed hfile hread, hplain (by simp [hfile]) (by simp [hfile]) ?_⟩
      intro t' ht'
      rw [htext t' ht', hread]
      nofun
    case h_3 hread => exact .longInteger hfile hread

theorem readConfig_of_countsAs {files : Files} {p : Path} {config : Toml.Table}
    (h : CountsAs files p config) : readConfig files p = .ok config := by
  cases h with
  | written file table => simp only [readConfig, file, table]
  | unreadable file => simp only [readConfig, file]
  | malformed file table => simp only [readConfig, file, table]

/-- What keeps a configuration from giving settings. -/
inductive Prevented (files : Files) (homes : Homes) (source : Source)
    (given : List (Text × Option Toml)) : SettingsFault → Prop
  | file {e : SettingsFault} (fault : ConfigFault files (source.file files) e) :
    Prevented files homes source given e
  | sections {e : SettingsFault} {config : Toml.Table}
      (counts : CountsAs files (source.file files) config)
      (fault : (sectionsOf given config).Fault homes e) : Prevented files homes source given e

/-- Whatever the configuration and the directory are, there are settings unless one of the faults is
there that are not caught. A configuration that cannot be opened or is malformed counts as an empty
one, and a setting whose value cannot be used is its default. -/
theorem load_degrades (files : Files) (homes : Homes) (source : Source)
    (given : List (Text × Option Toml)) :
    (∀ e, load files homes source given = .error e → Prevented files homes source given e) ∧
    ((∃ s, load files homes source given = .ok s) ↔
      ∀ e, ¬Prevented files homes source given e) ∧
    (∀ s, load files homes source given = .ok s → ∃ config,
      CountsAs files (source.file files) config ∧
      Follows homes (source.base files) (sectionsOf given config) s) := by
  have hload : Yields (Prevented files homes source given)
      (fun s => (∀ e, ¬Prevented files homes source given e) ∧ ∃ config,
        CountsAs files (source.file files) config ∧
        Follows homes (source.base files) (sectionsOf given config) s)
      (load files homes source given) := by
    refine ((yields_readConfig files (source.file files)).imp (fun _ => .file) fun _ => id).bind
      fun config ⟨hcounts, hfile⟩ => ?_
    refine (yields_ofSections homes (source.base files) (sectionsOf given config)).imp
      (fun _ => .sections hcounts) fun s ⟨hfollow, hsections⟩ => ⟨?_, config, hcounts, hfollow⟩
    rintro e (hfault | ⟨hcounts', hfault⟩)
    · exact hfile e hfault
    · cases (readConfig_of_countsAs hcounts).symm.trans (readConfig_of_countsAs hcounts')
      exact hsections e hfault
  cases hs : load files homes source given with
  | error e =>
    rw [hs] at hload
    refine ⟨?_, iff_of_false nofun fun h => h e hload, nofun⟩
    rintro _ ⟨⟩
    exact hload
  | ok s =>
    rw [hs] at hload
    refine ⟨nofun, iff_of_true ⟨s, rfl⟩ hload.1, ?_⟩
    rintro _ ⟨⟩
    exact hload.2

/-- A directory with a configuration of the given octets in it. -/
def filesWith (octets : List UInt8) : Files where
  entries := [(["work".toList], .directory), (["work".toList, configName], .file octets)]
  current := ["work".toList]

/-- An octet that no UTF-8 text holds keeps the settings from being read. -/
theorem undecodable_octet_prevents :
    load (filesWith [0xFF]) ⟨"/home/me".toList, []⟩ ⟨some ⟨.root, ["work".toList]⟩, none⟩ [] =
      .error .notUtf8 :=
  rfl

end Settings

end LineAssist
