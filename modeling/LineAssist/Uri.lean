import LineAssist.Path
import LineAssist.Text.Digit
import LineAssist.Text.Utf8

/-!
# URIs of files

A file has a URI: its path as UTF-8, octet by octet, where every octet that is not unreserved is
written as a percent sign and two hexadecimal digits. A URI is read back by its parts: the scheme,
the authority, the path up to a question mark or a number sign.
-/

namespace LineAssist.Uri

open Text (hexValue? decodeUtf8Lossy encodeUtf8)

/-- Letters, digits, and the marks that stand for themselves; a slash separates names. -/
def isPlain (c : Char) : Bool :=
  c.isAlphanum || c == '_' || c == '.' || c == '-' || c == '~' || c == '/'

/-- One octet as it stands in a URI. -/
def escapeOctet (b : UInt8) : Text :=
  let c := Char.ofNat b.toNat
  if b.toNat < 0x80 && isPlain c then [c]
  else '%' :: (Text.hex 2 b.toNat).map Char.toUpper

def escape (t : Text) : Text :=
  (encodeUtf8 t).flatMap escapeOctet

/-- Reads escapes; the octets of a run of ASCII characters are read as UTF-8 together. The octets
read so far come last first. -/
def unescapeFrom (octets : List UInt8) : Text → Text
  | [] => decodeUtf8Lossy octets.reverse
  | '%' :: rest =>
    match rest with
    | a :: b :: rest' =>
      match hexValue? a, hexValue? b with
      | some x, some y => unescapeFrom (UInt8.ofNat (16 * x + y) :: octets) rest'
      | _, _ => unescapeFrom (0x25 :: octets) (a :: b :: rest')
    | short => unescapeFrom (0x25 :: octets) short
  | c :: rest =>
    if c.toNat < 0x80 then unescapeFrom (UInt8.ofNat c.toNat :: octets) rest
    else decodeUtf8Lossy octets.reverse ++ c :: unescapeFrom [] rest
termination_by t => t.length

/-- The text with its escapes read. -/
def unescape (t : Text) : Text :=
  unescapeFrom [] t

/-- The URI of a path. -/
def ofPath (p : Path) : Text :=
  "file://".toList ++ escape p.text

structure Parts where
  scheme : Text
  authority : Text
  path : Text
  deriving DecidableEq, Repr

/-- The characters of a scheme. -/
def isSchemeChar (c : Char) : Bool :=
  c.isAlphanum || c == '+' || c == '-' || c == '.'

/-- The scheme in lower case and what follows its colon. -/
def splitScheme (t : Text) : Text × Text :=
  match Text.cut? ':' t with
  | some (c :: name, rest) =>
    if c.isAlpha && name.all isSchemeChar then (Text.lower (c :: name), rest) else ([], t)
  | _ => ([], t)

/-- The authority behind two slashes, and the rest. -/
def splitAuthority : Text → Text × Text
  | '/' :: '/' :: t => t.span fun c => !(c == '/' || c == '?' || c == '#')
  | t => ([], t)

/-- Characters whose compatibility form holds a delimiter of URIs. -/
def disguisedDelimiters : List Nat :=
  [0x2047, 0x2048, 0x2049, 0x2100, 0x2101, 0x2105, 0x2106, 0x2A74, 0xFE13, 0xFE16, 0xFE55, 0xFE56,
    0xFE5F, 0xFE6B, 0xFF03, 0xFF0F, 0xFF1A, 0xFF1F, 0xFF20]

/-- One to four hexadecimal digits. -/
def isHexGroup (t : Text) : Bool :=
  !t.isEmpty && t.length ≤ 4 && t.all fun c => (hexValue? c).isSome

/-- A decimal octet without zeros in front. -/
def isDecimalOctet (t : Text) : Bool :=
  !t.isEmpty && t.length ≤ 3 && t.all Text.isDigit && (t.length == 1 || t.head? != some '0') &&
    Text.digitsValue t ≤ 255

/-- Four decimal octets between dots. -/
def isDottedAddress (t : Text) : Bool :=
  let parts := Text.splitAtChar '.' t
  parts.length == 4 && parts.all isDecimalOctet

/-- The groups of an address between colons, the last of which may be a dotted address that counts
as two groups. -/
def addressGroups? (t : Text) : Option (List Text) :=
  let parts := Text.splitAtChar ':' t
  match parts.getLast? with
  | some last =>
    if last.contains '.' then
      if isDottedAddress last then some (parts.dropLast ++ [['0'], ['0']]) else none
    else some parts
  | none => none

/-- An address of eight groups, where one doubled colon stands for at least one group of zeros. -/
def isColonAddress (t : Text) : Bool :=
  let address := (t.span (· != '%')).1
  let zone := (t.span (· != '%')).2
  let zoneHolds := match zone with
    | [] => true
    | _ :: name => !name.isEmpty && !name.contains '%'
  zoneHolds && (Text.splitAtChar ':' address).length ≥ 3 &&
  match addressGroups? address with
  | none => false
  | some groups =>
    let inner := groups.tail.dropLast
    let gaps := (inner.filter List.isEmpty).length
    let startsOpen := groups.head? == some []
    let endsOpen := groups.getLast? == some []
    groups.length ≤ 9 && gaps ≤ 1 &&
    (groups.filter fun g => !g.isEmpty).all isHexGroup &&
    if gaps = 1 then
      (!startsOpen || inner.head? == some []) && (!endsOpen || inner.getLast? == some []) &&
        (groups.filter fun g => !g.isEmpty).length ≤ 7
    else groups.length = 8 && !startsOpen && !endsOpen

/-- A host that was written in brackets: an address, or a later form behind its version number. -/
def isBracketHost : Text → Bool
  | 'v' :: t =>
    match t.span (fun c => (hexValue? c).isSome) with
    | (_ :: _, '.' :: rest) => !rest.isEmpty && !rest.contains '\n'
    | _ => false
  | t => isColonAddress t

/-- The part behind the last occurrence of a character, or all of the text. -/
def afterLast (q : Char) (t : Text) : Text :=
  (t.reverse.takeWhile (· != q)).reverse

/-- The host of an authority with brackets can be read: it stands in brackets, alone or in front of
a colon. Brackets in front of an at sign do not make the host another one. -/
def isBracketed (a : Text) : Bool :=
  let place := afterLast '@' a
  match Text.cut? '[' place with
  | none => isBracketHost (place.takeWhile (· != ':'))
  | some (front, rest) =>
    let behind := (rest.dropWhile (· != ']')).drop 1
    front.isEmpty && (behind.isEmpty || behind.head? == some ':') &&
      isBracketHost (rest.takeWhile (· != ']'))

/-- The authority can be read: its brackets match and hold an address, and nothing in it stands
for a delimiter. -/
def isAuthority (a : Text) : Bool :=
  let opens := a.contains '['
  let closes := a.contains ']'
  let bracketed := if opens && closes then isBracketed a else opens == closes
  bracketed && a.all fun c => !disguisedDelimiters.contains c.toNat

/-- The parts of a URI, without the controls and spaces in front of it and without its tabs and
line ends. None when its authority cannot be read. -/
def parts? (uri : Text) : Option Parts :=
  let t := (uri.dropWhile fun c => c.toNat ≤ 0x20).filter fun c => !(c == '\t' || c == '\r' || c == '\n')
  let (scheme, rest) := splitScheme t
  let (authority, rest) := splitAuthority rest
  let path := rest.takeWhile fun c => !(c == '#' || c == '?')
  if isAuthority authority then some ⟨scheme, authority, path⟩ else none

/-- The path that a URI names. Any text that is not the URI of a file is a path itself. None when
the URI cannot be read. -/
def path? (uri : Text) : Option Path :=
  (parts? uri).map fun parts =>
    if parts.scheme = "file".toList then Path.ofText (unescape parts.path) else Path.ofText uri

/-- A path that starts with the letter of a drive. -/
def isDrivePath : Text → Bool
  | '/' :: letter :: ':' :: _ => letter.isAlpha
  | _ => false

/-- The schemes, and none, under which a semicolon in the last name starts parameters. -/
def parameterSchemes : List Text :=
  ["", "ftp", "hdl", "prospero", "http", "imap", "https", "shttp", "rtsp", "rtsps", "rtspu", "sip",
    "sips", "mms", "sftp", "tel"].map String.toList

/-- A path without the parameters of its last name. -/
def withoutParameters (path : Text) : Text :=
  let last := afterLast '/' path
  path.take (path.length - last.length) ++ last.takeWhile (· != ';')

/-- The path of the file behind the URI of a document, whatever its scheme. In the URI of a file the
authority is a host and the letter of a drive is put in lower case. None when the URI cannot be
read. -/
def filePath? (uri : Text) : Option Text :=
  (parts? uri).map fun parts =>
    let authority := unescape parts.authority
    let path := unescape (if parameterSchemes.contains parts.scheme then withoutParameters parts.path
      else parts.path)
    if parts.scheme ≠ "file".toList then path
    else if !authority.isEmpty && !path.isEmpty then ['/', '/'] ++ authority ++ path
    else if isDrivePath path then Text.lower ((path.drop 1).take 1) ++ path.drop 2
    else path

end LineAssist.Uri
