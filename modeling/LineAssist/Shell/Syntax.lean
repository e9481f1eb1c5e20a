import LineAssist.Text.Basic

/-!
# Command lines of a shell

A command line is a list of pipelines of commands; a command is made of words, and a word of parts
that stand for themselves or are expanded. Reading a line finds its commands or says what is wrong
with it.
-/

namespace LineAssist.Shell

/-- What a redirection does to a descriptor. -/
inductive RedirectMode where
  | read
  | write
  | append
  | duplicate
  deriving DecidableEq, Repr

mutual

/-- A part of a word. -/
inductive Part where
  | plain (t : Text)
  | quoted (t : Text)
  | variable (name : Text) (isQuoted : Bool)
  /-- A variable, or a text when the variable is empty. -/
  | fallback (name other : Text) (isQuoted : Bool)
  | arithmetic (expression : Text) (isQuoted : Bool)
  /-- The output of a command. -/
  | output (body : Command) (isQuoted : Bool)

inductive Redirect where
  | mk (descriptor : Nat) (mode : RedirectMode) (target : List Part)

inductive Command where
  | simple (assignments : List (Text × List Part)) (words : List (List Part))
      (redirects : List Redirect)
  | empty
  | pipe (first second : Command)
  | negation (body : Command)
  | both (first second : Command)
  | either (first second : Command)
  | sequence (first second : Command)
  | subshell (body : Command) (redirects : List Redirect)
  | group (body : Command) (redirects : List Redirect)
  | choice (condition thenBody elseBody : Command)
  /-- Repeats its body as long as the condition has the given outcome. -/
  | loop (outcome : Bool) (condition body : Command)
  | each (name : Text) (words : List (List Part)) (body : Command)

end

abbrev Word := List Part

/-- What is wrong with a line. -/
inductive SyntaxFault where
  | unterminatedQuote
  | unexpectedEnd
  | unexpected (token : Text)
  deriving DecidableEq, Repr

def SyntaxFault.message : SyntaxFault → Text
  | .unterminatedQuote => "Unterminated quoted string".toList
  | .unexpectedEnd => "end of file unexpected".toList
  | .unexpected token => '"' :: token ++ "\" unexpected".toList

def isNameStart (c : Char) : Bool :=
  c.isAlpha || c == '_'

def isNameChar (c : Char) : Bool :=
  c.isAlphanum || c == '_'

/-- Characters that end a word. -/
def isMeta (c : Char) : Bool :=
  " \t\n;&|<>()".toList.contains c

/-- A parameter with a name of one special character. -/
def isSpecialName (c : Char) : Bool :=
  c.isDigit || "?$#@*!-".toList.contains c

def reservedWords : List Text :=
  ["if", "then", "else", "elif", "fi", "do", "done", "while", "until", "for", "in", "\x7b", "\x7d",
    "!"].map String.toList

/-- The reserved word at the start of a text, and the text behind it. -/
def reserved? (t : Text) : Option (Text × Text) :=
  let (word, rest) := t.span fun c => !isMeta c
  if reservedWords.contains word then some (word, rest) else none

/-- Skips spaces, tabs, joined lines and comments. -/
def skipBlanks : Text → Text
  | [] => []
  | '\\' :: '\n' :: rest => skipBlanks rest
  | c :: rest =>
    if c = ' ' ∨ c = '\t' then skipBlanks rest
    else if c = '#' then rest.dropWhile (· != '\n')
    else c :: rest

/-- Skips blanks and line ends. -/
def skipLines : Nat → Text → Text
  | 0, t => t
  | fuel + 1, t =>
    match skipBlanks t with
    | '\n' :: rest => skipLines fuel rest
    | rest => rest

/-- The text up to the brackets that close an arithmetic expression, and the text behind them. -/
def spanArithmetic : Nat → Text → Option (Text × Text)
  | _, [] => none
  | 0, ')' :: ')' :: rest => some ([], rest)
  | depth, c :: rest =>
    let depth := if c = '(' then depth + 1 else if c = ')' then depth - 1 else depth
    (spanArithmetic depth rest).map fun (inner, after) => (c :: inner, after)

/-- A parameter in braces: a name, and another text if there is one. -/
def readBraced? (isQuoted : Bool) (t : Text) : Option (Part × Text) := do
  let (inner, rest) ← Text.cut? '\x7d' t
  match inner.span fun c => isNameChar c || isSpecialName c && c != '-' with
  | (name@(_ :: _), []) => some (.variable name isQuoted, rest)
  | (name@(_ :: _), ':' :: '-' :: other) => some (.fallback name other isQuoted, rest)
  | _ => none

/-- The token at the start of a text, for messages. -/
def tokenOf (t : Text) : SyntaxFault :=
  match t with
  | [] => .unexpectedEnd
  | '\n' :: _ => .unexpected "newline".toList
  | c :: d :: _ =>
    if c = d ∧ isMeta c then .unexpected [c, d]
    else if isMeta c then .unexpected [c]
    else .unexpected (t.takeWhile fun c => !isMeta c)
  | [c] => .unexpected [c]

/-- The operator of a redirection with the digits in front of it. -/
def readRedirect? (t : Text) : Option (Nat × RedirectMode × Text) :=
  let (digits, rest) := t.span Char.isDigit
  let descriptor (default : Nat) : Nat :=
    if digits.isEmpty then default else digits.foldl (fun n c => n * 10 + (c.toNat - 48)) 0
  match rest with
  | '>' :: '>' :: after => some (descriptor 1, .append, after)
  | '>' :: '&' :: after => some (descriptor 1, .duplicate, after)
  | '>' :: '|' :: after => some (descriptor 1, .write, after)
  | '>' :: after => some (descriptor 1, .write, after)
  | '<' :: '&' :: after => some (descriptor 0, .duplicate, after)
  | '<' :: after => some (descriptor 0, .read, after)
  | _ => none

/-- A name followed by an equals sign. -/
def readAssigned? (t : Text) : Option (Text × Text) :=
  match t.span isNameChar with
  | (c :: name, '=' :: rest) => if isNameStart c then some (c :: name, rest) else none
  | _ => none

mutual

/-- The parts of a word up to its end, or up to the closing double quote. -/
def readParts : Nat → Bool → Text → Except SyntaxFault (Word × Text)
  | 0, _, _ => .error .unexpectedEnd
  | fuel + 1, isQuoted, t =>
    let goOn (part : Part) (rest : Text) : Except SyntaxFault (Word × Text) := do
      let (more, rest) ← readParts fuel isQuoted rest
      .ok (part :: more, rest)
    match t with
    | [] => if isQuoted then .error .unterminatedQuote else .ok ([], [])
    | '"' :: rest =>
      if isQuoted then .ok ([], rest)
      else do
        let (inner, rest) ← readParts fuel true rest
        let (more, rest) ← readParts fuel false rest
        .ok (.quoted [] :: inner ++ more, rest)
    | '\'' :: rest =>
      if isQuoted then goOn (.quoted ['\'']) rest
      else
        match Text.cut? '\'' rest with
        | some (body, rest) => goOn (.quoted body) rest
        | none => .error .unterminatedQuote
    | '\\' :: '\n' :: rest => readParts fuel isQuoted rest
    | '\\' :: c :: rest =>
      if isQuoted && !"$`\"\\".toList.contains c then goOn (.quoted ['\\', c]) rest
      else goOn (.quoted [c]) rest
    | '$' :: '(' :: '(' :: rest =>
      match spanArithmetic 0 rest with
      | some (expression, rest) => goOn (.arithmetic expression isQuoted) rest
      | none => .error .unexpectedEnd
    | '$' :: '(' :: rest => do
      let (body, rest) ← readList fuel (skipLines fuel rest)
      match rest with
      | ')' :: rest => goOn (.output body isQuoted) rest
      | rest => .error (tokenOf rest)
    | '$' :: '\x7b' :: rest =>
      match readBraced? isQuoted rest with
      | some (part, rest) => goOn part rest
      | none => .error .unexpectedEnd
    | '$' :: c :: rest =>
      if isNameStart c then
        let (name, after) := (c :: rest).span isNameChar
        goOn (.variable name isQuoted) after
      else if isSpecialName c then goOn (.variable [c] isQuoted) rest
      else goOn (.quoted ['$']) (c :: rest)
    | '`' :: rest =>
      match Text.cut? '`' rest with
      | some (inner, rest) => do
        let (body, _) ← readList fuel (skipLines fuel inner)
        goOn (.output body isQuoted) rest
      | none => .error .unterminatedQuote
    | c :: rest =>
      if isQuoted then goOn (.quoted [c]) rest
      else if isMeta c then .ok ([], c :: rest)
      else goOn (.plain [c]) rest

/-- The words of a command up to its end. -/
def readWords : Nat → Text → Except SyntaxFault (List Word × Text)
  | 0, _ => .error .unexpectedEnd
  | fuel + 1, t =>
    match skipBlanks t with
    | [] => .ok ([], [])
    | c :: rest =>
      if isMeta c then .ok ([], c :: rest)
      else do
        let (word, rest) ← readParts fuel false (c :: rest)
        let (words, rest) ← readWords fuel rest
        .ok (word :: words, rest)

/-- The redirections behind a command. -/
def readRedirects : Nat → Text → Except SyntaxFault (List Redirect × Text)
  | 0, _ => .error .unexpectedEnd
  | fuel + 1, t =>
    match readRedirect? (skipBlanks t) with
    | none => .ok ([], skipBlanks t)
    | some (descriptor, mode, rest) => do
      let (target, rest) ← readParts fuel false (skipBlanks rest)
      if target.isEmpty then .error (tokenOf rest)
      else
        let (more, rest) ← readRedirects fuel rest
        .ok (.mk descriptor mode target :: more, rest)

/-- The assignments, words and redirections of a simple command. -/
def readSimple : Nat → Bool → Text →
    Except SyntaxFault (List (Text × Word) × List Word × List Redirect × Text)
  | 0, _, _ => .error .unexpectedEnd
  | fuel + 1, assigning, t =>
    let t := skipBlanks t
    match readRedirect? t with
    | some (descriptor, mode, rest) => do
      let (target, rest) ← readParts fuel false (skipBlanks rest)
      if target.isEmpty then .error (tokenOf rest)
      else
        let (assigned, words, redirects, rest) ← readSimple fuel assigning rest
        .ok (assigned, words, .mk descriptor mode target :: redirects, rest)
    | none =>
      match t with
      | [] => .ok ([], [], [], [])
      | c :: after =>
        if isMeta c then .ok ([], [], [], c :: after)
        else
          match if assigning then readAssigned? t else none with
          | some (name, rest) => do
            let (value, rest) ← readParts fuel false rest
            let (assigned, words, redirects, rest) ← readSimple fuel true rest
            .ok ((name, value) :: assigned, words, redirects, rest)
          | none => do
            let (word, rest) ← readParts fuel false t
            let (assigned, words, redirects, rest) ← readSimple fuel false rest
            .ok (assigned, word :: words, redirects, rest)

/-- The alternatives behind a condition that failed, up to the end of the choice. -/
def readElse : Nat → Text → Except SyntaxFault (Command × Text)
  | 0, _ => .error .unexpectedEnd
  | fuel + 1, t =>
    match reserved? t with
    | some (['f', 'i'], rest) => .ok (.empty, rest)
    | some (['e', 'l', 's', 'e'], rest) => do
      let (body, rest) ← readList fuel (skipLines fuel rest)
      .ok (body, ← expect ['f', 'i'] rest)
    | some (['e', 'l', 'i', 'f'], rest) => readChoice fuel rest
    | _ => .error (tokenOf t)

/-- A choice from its condition on. -/
def readChoice : Nat → Text → Except SyntaxFault (Command × Text)
  | 0, _ => .error .unexpectedEnd
  | fuel + 1, t => do
    let (condition, rest) ← readList fuel (skipLines fuel t)
    let rest ← expect "then".toList rest
    let (thenBody, rest) ← readList fuel (skipLines fuel rest)
    let (elseBody, rest) ← readElse fuel rest
    .ok (.choice condition thenBody elseBody, rest)

/-- The body of a loop. -/
def readBody : Nat → Text → Except SyntaxFault (Command × Text)
  | 0, _ => .error .unexpectedEnd
  | fuel + 1, t => do
    let rest ← expect "do".toList t
    let (body, rest) ← readList fuel (skipLines fuel rest)
    .ok (body, ← expect "done".toList rest)

/-- A loop over words. -/
def readEach : Nat → Text → Except SyntaxFault (Command × Text)
  | 0, _ => .error .unexpectedEnd
  | fuel + 1, t => do
    let (name, rest) := (skipBlanks t).span isNameChar
    if name.isEmpty then .error (tokenOf rest)
    else
      let rest ← expect "in".toList (skipLines fuel rest)
      let (words, rest) ← readWords fuel rest
      let rest := match rest with
        | ';' :: rest => rest
        | rest => rest
      let (body, rest) ← readBody fuel (skipLines fuel rest)
      .ok (.each name words body, rest)

/-- One command. -/
def readCommand : Nat → Text → Except SyntaxFault (Command × Text)
  | 0, _ => .error .unexpectedEnd
  | fuel + 1, t =>
    match t with
    | '(' :: rest => do
      let (body, rest) ← readList fuel (skipLines fuel rest)
      match rest with
      | ')' :: rest => do
        let (redirects, rest) ← readRedirects fuel rest
        .ok (.subshell body redirects, rest)
      | rest => .error (tokenOf rest)
    | _ =>
      match (reserved? t).map fun (word, rest) => (String.ofList word, rest) with
      | some ("\x7b", rest) => do
        let (body, rest) ← readList fuel (skipLines fuel rest)
        let rest ← expect ['\x7d'] rest
        let (redirects, rest) ← readRedirects fuel rest
        .ok (.group body redirects, rest)
      | some ("if", rest) => readChoice fuel rest
      | some ("while", rest) => do
        let (condition, rest) ← readList fuel (skipLines fuel rest)
        let (body, rest) ← readBody fuel rest
        .ok (.loop true condition body, rest)
      | some ("until", rest) => do
        let (condition, rest) ← readList fuel (skipLines fuel rest)
        let (body, rest) ← readBody fuel rest
        .ok (.loop false condition body, rest)
      | some ("for", rest) => readEach fuel rest
      | some (word, _) => .error (.unexpected word.toList)
      | none => do
        let (assigned, words, redirects, rest) ← readSimple fuel true t
        if assigned.isEmpty && words.isEmpty && redirects.isEmpty then .error (tokenOf rest)
        else .ok (.simple assigned words redirects, rest)

/-- Commands joined by pipes. -/
def readPipeline : Nat → Text → Except SyntaxFault (Command × Text)
  | 0, _ => .error .unexpectedEnd
  | fuel + 1, t =>
    match reserved? t with
    | some (['!'], rest) => do
      let (body, rest) ← readPipeline fuel (skipBlanks rest)
      .ok (.negation body, rest)
    | _ => do
      let (first, rest) ← readCommand fuel t
      match skipBlanks rest with
      | '|' :: '|' :: rest => .ok (first, '|' :: '|' :: rest)
      | '|' :: rest => do
        let (second, rest) ← readPipeline fuel (skipLines fuel rest)
        .ok (.pipe first second, rest)
      | rest => .ok (first, rest)

/-- Goes on behind a pipeline with what is to be done depending on its outcome. -/
def readAndOr : Nat → Command → Text → Except SyntaxFault (Command × Text)
  | 0, _, _ => .error .unexpectedEnd
  | fuel + 1, first, t =>
    match t with
    | '&' :: '&' :: rest => do
      let (second, rest) ← readPipeline fuel (skipLines fuel rest)
      readAndOr fuel (.both first second) rest
    | '|' :: '|' :: rest => do
      let (second, rest) ← readPipeline fuel (skipLines fuel rest)
      readAndOr fuel (.either first second) rest
    | t => .ok (first, t)

/-- A list of commands, up to a closing bracket, a closing reserved word or the end. -/
def readList : Nat → Text → Except SyntaxFault (Command × Text)
  | 0, _ => .error .unexpectedEnd
  | fuel + 1, t =>
    let closes := match reserved? t with
      | some (word, _) =>
        ["then", "else", "elif", "fi", "do", "done", "\x7d"].any (·.toList == word)
      | none => false
    match t with
    | [] => .ok (.empty, [])
    | ')' :: _ => .ok (.empty, t)
    | t =>
      if closes then .ok (.empty, t)
      else do
        let (first, rest) ← readPipeline fuel t
        let (first, rest) ← readAndOr fuel first rest
        match rest with
        | ';' :: ';' :: _ => .error (tokenOf rest)
        | c :: more =>
          if c = ';' ∨ c = '\n' ∨ c = '&' then
            let (second, rest) ← readList fuel (skipLines fuel more)
            .ok (match second with | .empty => first | second => .sequence first second, rest)
          else .ok (first, rest)
        | [] => .ok (first, [])

/-- The text behind a reserved word. -/
def expect (word t : Text) : Except SyntaxFault Text :=
  match reserved? t with
  | some (found, rest) => if found = word then .ok rest else .error (.unexpected found)
  | none => .error (tokenOf t)

end

/-- The commands of a whole line. -/
def read (line : Text) : Except SyntaxFault Command := do
  let fuel := 8 * line.length + 16
  let (body, rest) ← readList fuel (skipLines fuel line)
  match rest with
  | [] => .ok body
  | rest => .error (tokenOf rest)

end LineAssist.Shell
