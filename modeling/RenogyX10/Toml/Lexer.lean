import RenogyX10.Toml.Norm

set_option autoImplicit false

namespace RenogyX10.Toml

open CString

inductive TokenType where
  | invalid
  | dot
  | comma
  | equal
  | lbrace
  | rbrace
  | newline
  | lbracket
  | rbracket
  | string
deriving DecidableEq

/-- A token; `ptr` is the text from its first byte on. -/
structure TokenT where
  tok : TokenType := .invalid
  lineno : Nat := 0
  ptr : List UInt8 := []
  len : Nat := 0
  eof : Bool := false

/-- What is written to `errbuf`; an internal error names the line of `toml.c`. -/
inductive ParseError where
  | eInternal (fline : Nat)
  | eSyntax (lineno : Nat) (msg : String)
  | eBadKey (lineno : Nat)
  | eKeyExists (lineno : Nat)
  | eForbid (lineno : Nat) (msg : String)
deriving DecidableEq

/-- `scan_digits`: exactly `n` digits. -/
def scanDigits : Nat → List UInt8 → Nat → Option Nat
  | 0, _, ret => some ret
  | _ + 1, [], _ => none
  | n + 1, c :: p, ret =>
      if isdigit c then scanDigits n p (10 * ret + (c.toNat - (ascii '0').toNat)) else none

/-- Two groups of digits with a separator between them. -/
def separated (p : List UInt8) (place : Nat) (separator : UInt8) : Option Unit :=
  if p[place]? = some separator then some () else none

def scanDate (p : List UInt8) : Option (Nat × Nat × Nat) := do
  let year ← scanDigits 4 p 0
  separated p 4 (ascii '-')
  let month ← scanDigits 2 (p.drop 5) 0
  separated p 7 (ascii '-')
  let day ← scanDigits 2 (p.drop 8) 0
  pure (year, month, day)

def scanTime (p : List UInt8) : Option (Nat × Nat × Nat) := do
  let hour ← scanDigits 2 p 0
  separated p 2 (ascii ':')
  let minute ← scanDigits 2 (p.drop 3) 0
  separated p 5 (ascii ':')
  let second ← scanDigits 2 (p.drop 6) 0
  pure (hour, minute, second)

def tripleOf (quote : UInt8) : List UInt8 := [quote, quote, quote]

/-- Where a triple d-quote is that no backslash stands before. -/
def findTripleD : UInt8 → List UInt8 → Option Nat
  | _, [] => none
  | before, c :: q =>
      if (tripleOf (ascii '"')).isPrefixOf (c :: q) ∧ before ≠ ascii '\\' then some 0
      else (findTripleD c q).map (· + 1)

/-- `"btnfr\"\\"` -/
def isEscape (c : UInt8) : Bool :=
  c = ascii 'b' || c = ascii 't' || c = ascii 'n' || c = ascii 'f' || c = ascii 'r' ||
    c = ascii '"' || c = ascii '\\'

/-- `"0123456789ABCDEF"` -/
def isHexChar (c : UInt8) : Bool := isdigit c || (ascii 'A' ≤ c && c ≤ ascii 'F')

/-- The escapes in the first bytes of a triple d-quoted string. -/
def checkTripleD (lineno : Nat) : Nat → List UInt8 → Nat → Bool → Except ParseError Unit
  | 0, _, hexreq, escape =>
      if escape then .error (.eSyntax lineno "expect an escape char")
      else if hexreq ≠ 0 then .error (.eSyntax lineno "expected more hex char")
      else .ok ()
  | _ + 1, [], _, _ => .ok ()
  | n + 1, c :: p, hexreq, escape =>
      if escape then
        if isEscape c then checkTripleD lineno n p hexreq false
        else if c = ascii 'u' then checkTripleD lineno n p 4 false
        else if c = ascii 'U' then checkTripleD lineno n p 8 false
        else if (c :: p)[strspn isBlank (c :: p)]? = some (ascii '\n') then
          checkTripleD lineno n p hexreq false
        else .error (.eSyntax lineno "bad escape char")
      else if hexreq ≠ 0 then
        if isHexChar c then checkTripleD lineno n p (hexreq - 1) false
        else .error (.eSyntax lineno "expect hex char")
      else checkTripleD lineno n p hexreq (c = ascii '\\')

/-- The bytes of a d-quoted string before its closing quote. -/
def scanQuoted (lineno : Nat) : List UInt8 → Nat → Bool → Except ParseError Nat
  | [], _, _ => .error (.eSyntax lineno "unterminated quote")
  | c :: p, hexreq, escape =>
      if escape then
        if isEscape c then (scanQuoted lineno p hexreq false).map (· + 1)
        else if c = ascii 'u' then (scanQuoted lineno p 4 false).map (· + 1)
        else if c = ascii 'U' then (scanQuoted lineno p 8 false).map (· + 1)
        else .error (.eSyntax lineno "bad escape char")
      else if hexreq ≠ 0 then
        if isHexChar c then (scanQuoted lineno p (hexreq - 1) false).map (· + 1)
        else .error (.eSyntax lineno "expect hex char")
      else if c = ascii '\\' then (scanQuoted lineno p hexreq true).map (· + 1)
      else if c = ascii '\'' then
        if p[0]? = some (ascii '\'') ∧ p[1]? = some (ascii '\'') then
          .error (.eSyntax lineno "triple-s-quote inside string lit")
        else (scanQuoted lineno p hexreq false).map (· + 1)
      else if c = ascii '\n' then .error (.eSyntax lineno "unterminated quote")
      else if c = ascii '"' then .ok 0
      else (scanQuoted lineno p hexreq false).map (· + 1)

/-- `"0123456789.:+-Tt Zz"` -/
def isStamp (c : UInt8) : Bool :=
  isdigit c || c = ascii '.' || c = ascii ':' || c = ascii '+' || c = ascii '-' ||
    c = ascii 'T' || c = ascii 't' || c = ascii ' ' || c = ascii 'Z' || c = ascii 'z'

/-- The bytes of a literal. -/
def isLiteral (dotisspecial : Bool) (c : UInt8) : Bool :=
  !(c = ascii '.' && dotisspecial) &&
    (isalnum c || c = ascii '+' || c = ascii '-' || c = ascii '_' || c = ascii '.')

def setToken (tok : TokenType) (lineno : Nat) (ptr : List UInt8) (len : Nat) : TokenT :=
  { tok := tok, lineno := lineno, ptr := ptr, len := len }

def setEof (lineno : Nat) : TokenT := { setToken .newline lineno [] 0 with eof := true }

/-- `'''…'''` -/
def scanTripleS (p : List UInt8) (lineno : Nat) : Except ParseError TokenT :=
  match strstr (tripleOf (ascii '\'')) (p.drop 3) with
  | none => .error (.eSyntax lineno "unterminated triple-s-quote")
  | some q =>
      let more := strspn (· = ascii '\'') (p.drop (3 + q + 3))
      .ok (setToken .string lineno p (3 + q + more + 3))

/-- `"""…"""` -/
def scanTriple (p : List UInt8) (lineno : Nat) : Except ParseError TokenT :=
  match findTripleD (ascii '"') (p.drop 3) with
  | none => .error (.eSyntax lineno "unterminated triple-d-quote")
  | some q =>
      let more := strspn (· = ascii '"') (p.drop (3 + q + 3))
      match checkTripleD lineno (q + more) (p.drop 3) 0 false with
      | .error reason => .error reason
      | .ok _ => .ok (setToken .string lineno p (3 + q + more + 3))

/-- `'…'` -/
def scanSQuoted (p : List UInt8) (lineno : Nat) : Except ParseError TokenT :=
  let taken := strspn (fun c => c ≠ ascii '\n' && c ≠ ascii '\'') (p.drop 1)
  if p[1 + taken]? = some (ascii '\'') then .ok (setToken .string lineno p (1 + taken + 1))
  else .error (.eSyntax lineno "unterminated s-quote")

/-- A timestamp; spaces at its end are squeezed out. -/
def stampLength (p : List UInt8) : Nat :=
  ((p.takeWhile isStamp).reverse.dropWhile (· = ascii ' ')).length

def scanString (p : List UInt8) (lineno : Nat) (dotisspecial : Bool) : Except ParseError TokenT :=
  if (tripleOf (ascii '\'')).isPrefixOf p then scanTripleS p lineno
  else if (tripleOf (ascii '"')).isPrefixOf p then scanTriple p lineno
  else if p[0]? = some (ascii '\'') then scanSQuoted p lineno
  else if p[0]? = some (ascii '"') then
    (scanQuoted lineno (p.drop 1) 0 false).map fun n => setToken .string lineno p (n + 2)
  else if (scanDate p).isSome ∨ (scanTime p).isSome then
    .ok (setToken .string lineno p (stampLength p))
  else .ok (setToken .string lineno p (strspn (isLiteral dotisspecial) p))

/-- Skip white space and comments, up to the end of the line. -/
def skipBlank : Bool → List UInt8 → List UInt8
  | _, [] => []
  | true, c :: p => if c = ascii '\n' then c :: p else skipBlank true p
  | false, c :: p =>
      if c = ascii '#' then skipBlank true p
      else if isBlank c then skipBlank false p
      else c :: p

def punctuation (c : UInt8) : Option TokenType :=
  if c = ascii ',' then some .comma
  else if c = ascii '=' then some .equal
  else if c = ascii '{' then some .lbrace
  else if c = ascii '}' then some .rbrace
  else if c = ascii '[' then some .lbracket
  else if c = ascii ']' then some .rbracket
  else if c = ascii '\n' then some .newline
  else none

/-- The token at `p`, behind the white space. -/
def tokenAt (lineno : Nat) (dotisspecial : Bool) : List UInt8 → Except ParseError TokenT
  | [] => .ok (setEof lineno)
  | c :: p =>
      if dotisspecial ∧ c = ascii '.' then .ok (setToken .dot lineno (c :: p) 1)
      else
        match punctuation c with
        | some tok => .ok (setToken tok lineno (c :: p) 1)
        | none => scanString (c :: p) lineno dotisspecial

/-- `next_token`, on the current token. -/
def TokenT.next (dotisspecial : Bool) (t : TokenT) : Except ParseError TokenT :=
  tokenAt (t.lineno + (t.ptr.take t.len).count (ascii '\n')) dotisspecial
    (skipBlank false (t.ptr.drop t.len))

end RenogyX10.Toml
