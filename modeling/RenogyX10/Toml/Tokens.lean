import RenogyX10.Toml.Parser

set_option autoImplicit false

namespace RenogyX10.Toml

open CString

/-- What is left of the text at a place, and the line of this place. -/
def Placed (conf rest : List UInt8) (lineno : Nat) : Prop :=
  ∃ before, conf = before ++ rest ∧ lineno = 1 + before.count (ascii '\n')

/-- The line of the text that an error names. -/
def ParseError.lineno : ParseError → Option Nat
  | eInternal _ => none
  | eSyntax lineno _ => some lineno
  | eBadKey lineno => some lineno
  | eKeyExists lineno => some lineno
  | eForbid lineno _ => some lineno

/-- An error names a line, and it is that of some place in the text. -/
def ParseError.Blames (conf : List UInt8) (reason : ParseError) : Prop :=
  ∃ lineno rest, reason.lineno = some lineno ∧ Placed conf rest lineno

/-- An error that the parser did not expect; it names a line of `toml.c`, none of the text. -/
def ParseError.IsInternal (reason : ParseError) : Prop := ∃ fline, reason = .eInternal fline

structure TokenT.Within (conf : List UInt8) (t : TokenT) : Prop where
  placed : Placed conf t.ptr t.lineno
  fits : t.len ≤ t.ptr.length

/-- The bytes that a quoted string has at least. -/
def quotesLength (ptr : List UInt8) : Nat :=
  match ptr with
  | [] => 0
  | quote :: _ =>
      if quote = ascii '\'' ∨ quote = ascii '"' then
        if (tripleOf quote).isPrefixOf ptr then 6 else 2
      else 0

/-- A token that was scanned; only a string can be empty before the end of the text. -/
structure TokenT.Scanned (conf : List UInt8) (t : TokenT) : Prop extends t.Within conf where
  eof_iff : t.eof = true ↔ t.ptr = []
  atEof : t.eof = true → t.tok = .newline
  one : t.eof = false → t.tok ≠ .string → t.len = 1
  quoted : t.tok = .string → quotesLength t.ptr ≤ t.len

variable {conf p : List UInt8} {lineno : Nat}

theorem Placed.blames {reason : ParseError} (placed : Placed conf p lineno)
    (line : reason.lineno = some lineno) : reason.Blames conf := ⟨lineno, p, line, placed⟩

theorem Placed.skip {skipped rest : List UInt8} (placed : Placed conf (skipped ++ rest) lineno) :
    Placed conf rest (lineno + skipped.count (ascii '\n')) := by
  obtain ⟨before, eq, line⟩ := placed
  refine ⟨before ++ skipped, ?_, ?_⟩
  · rw [eq, List.append_assoc]
  · rw [List.count_append]
    omega

theorem exists_skipBlank (comment : Bool) (p : List UInt8) :
    ∃ skipped, p = skipped ++ skipBlank comment p ∧ ascii '\n' ∉ skipped := by
  induction p generalizing comment with
  | nil => exact ⟨[], by cases comment <;> rfl, List.not_mem_nil⟩
  | cons c p ih =>
      have more : ∀ next, c ≠ ascii '\n' → ∃ skipped, c :: p = skipped ++ skipBlank next p ∧
          ascii '\n' ∉ skipped := by
        intro next other
        obtain ⟨skipped, eq, none⟩ := ih next
        refine ⟨c :: skipped, by rw [List.cons_append, ← eq], ?_⟩
        rw [List.mem_cons, not_or]
        exact ⟨fun same => other same.symm, none⟩
      have stop : ∃ skipped, c :: p = skipped ++ (c :: p) ∧ ascii '\n' ∉ skipped :=
        ⟨[], rfl, List.not_mem_nil⟩
      cases comment with
      | true =>
          unfold skipBlank
          split_ifs with newline
          · exact stop
          · exact more true newline
      | false =>
          unfold skipBlank
          split_ifs with hash blank
          · refine more true ?_
            rw [hash]
            decide
          · refine more false ?_
            intro newline
            rw [newline] at blank
            exact absurd blank (by decide)
          · exact stop

theorem strstr_le {needle : List UInt8} {n : Nat} (found : strstr needle p = some n) :
    n + needle.length ≤ p.length := by
  induction p generalizing n with
  | nil =>
      unfold strstr at found
      split_ifs at found with empty
      cases found
      rw [empty]
      exact Nat.le_refl 0
  | cons c p ih =>
      unfold strstr at found
      split_ifs at found with here
      · cases found
        have short := (List.isPrefixOf_iff_prefix.mp here).length_le
        omega
      · obtain ⟨m, eq, rfl⟩ := Option.map_eq_some_iff.mp found
        have short := ih eq
        rw [List.length_cons]
        omega

theorem findTripleD_le {before : UInt8} {n : Nat} (found : findTripleD before p = some n) :
    n + 3 ≤ p.length := by
  induction p generalizing before n with
  | nil => cases found
  | cons c p ih =>
      unfold findTripleD at found
      split_ifs at found with here
      · cases found
        have short := (List.isPrefixOf_iff_prefix.mp here.1).length_le
        simp only [tripleOf, List.length_cons, List.length_nil] at short ⊢
        omega
      · obtain ⟨m, eq, rfl⟩ := Option.map_eq_some_iff.mp found
        have short := ih eq
        rw [List.length_cons]
        omega

theorem scanQuoted_lt {hexreq n : Nat} {escape : Bool}
    (scanned : scanQuoted lineno p hexreq escape = .ok n) : n < p.length := by
  induction p generalizing hexreq escape n with
  | nil => cases scanned
  | cons c p ih =>
      have more : ∀ {hexreq : Nat} {escape : Bool},
          (scanQuoted lineno p hexreq escape).map (· + 1) = .ok n → n < (c :: p).length := by
        intro hexreq escape eq
        cases rest : scanQuoted lineno p hexreq escape with
        | error reason =>
            rw [rest] at eq
            cases eq
        | ok m =>
            rw [rest] at eq
            cases eq
            exact Nat.succ_lt_succ (ih rest)
      unfold scanQuoted at scanned
      split_ifs at scanned
      all_goals first
        | exact more scanned
        | cases scanned
      exact Nat.succ_pos _

theorem scanQuoted_lineno {hexreq : Nat} {escape : Bool} {reason : ParseError}
    (failed : scanQuoted lineno p hexreq escape = .error reason) :
    reason.lineno = some lineno := by
  induction p generalizing hexreq escape with
  | nil =>
      cases failed
      rfl
  | cons c p ih =>
      have more : ∀ {hexreq : Nat} {escape : Bool},
          (scanQuoted lineno p hexreq escape).map (· + 1) = .error reason →
            reason.lineno = some lineno := by
        intro hexreq escape eq
        cases rest : scanQuoted lineno p hexreq escape with
        | error other =>
            rw [rest] at eq
            cases eq
            exact ih rest
        | ok m =>
            rw [rest] at eq
            cases eq
      unfold scanQuoted at failed
      split_ifs at failed
      all_goals first
        | exact more failed
        | cases failed
      all_goals rfl

theorem checkTripleD_lineno {n hexreq : Nat} {escape : Bool} {reason : ParseError}
    (failed : checkTripleD lineno n p hexreq escape = .error reason) :
    reason.lineno = some lineno := by
  induction n generalizing p hexreq escape with
  | zero =>
      unfold checkTripleD at failed
      split_ifs at failed <;> cases failed <;> rfl
  | succ n ih =>
      cases p with
      | nil => cases failed
      | cons c p =>
          unfold checkTripleD at failed
          split_ifs at failed
          all_goals first
            | exact ih failed
            | cases failed
          all_goals rfl

/-- What `scan_string` makes of the text at `p`. -/
structure StringAt (p : List UInt8) (lineno : Nat) (t : TokenT) : Prop where
  tok : t.tok = .string
  line : t.lineno = lineno
  ptr : t.ptr = p
  eof : t.eof = false
  fits : t.len ≤ p.length
  quoted : quotesLength p ≤ t.len

theorem setToken_stringAt {len : Nat} (fits : len ≤ p.length) (quoted : quotesLength p ≤ len) :
    StringAt p lineno (setToken .string lineno p len) :=
  ⟨rfl, rfl, rfl, rfl, fits, quoted⟩

theorem quotesLength_le_six (p : List UInt8) : quotesLength p ≤ 6 := by
  unfold quotesLength
  split
  · omega
  · split_ifs <;> omega

theorem quotesLength_unquoted (single : p[0]? ≠ some (ascii '\''))
    (double : p[0]? ≠ some (ascii '"')) : quotesLength p = 0 := by
  cases p with
  | nil => rfl
  | cons quote p =>
      have other : ¬ (quote = ascii '\'' ∨ quote = ascii '"') := by
        rintro (rfl | rfl)
        · exact single rfl
        · exact double rfl
      exact if_neg other

theorem quotesLength_of_not_triple (single : ¬ (tripleOf (ascii '\'')).isPrefixOf p)
    (double : ¬ (tripleOf (ascii '"')).isPrefixOf p) : quotesLength p ≤ 2 := by
  unfold quotesLength
  split
  · omega
  · rename_i quote rest
    split_ifs with isQuote triple
    · obtain rfl | rfl := isQuote
      · exact absurd triple single
      · exact absurd triple double
    · omega
    · omega

/-- How a scan ends: with a token, or with an error about its line. -/
def ScanEnds (good : TokenT → Prop) (lineno : Nat) : Except ParseError TokenT → Prop
  | .ok t => good t
  | .error reason => reason.lineno = some lineno

theorem scanTripleS_ends (lineno : Nat) (p : List UInt8) :
    ScanEnds (StringAt p lineno) lineno (scanTripleS p lineno) := by
  unfold scanTripleS
  cases found : strstr (tripleOf (ascii '\'')) (p.drop 3) with
  | none => rfl
  | some q =>
      have inside := strstr_le found
      have more := strspn_le (· = ascii '\'') (p.drop (3 + q + 3))
      have six := quotesLength_le_six p
      simp only [List.length_drop, tripleOf, List.length_cons, List.length_nil] at inside more
      exact setToken_stringAt (by omega) (by omega)

theorem scanTriple_ends (lineno : Nat) (p : List UInt8) :
    ScanEnds (StringAt p lineno) lineno (scanTriple p lineno) := by
  unfold scanTriple
  cases found : findTripleD (ascii '"') (p.drop 3) with
  | none => rfl
  | some q =>
      have inside := findTripleD_le found
      have more := strspn_le (· = ascii '"') (p.drop (3 + q + 3))
      have six := quotesLength_le_six p
      simp only [List.length_drop] at inside more
      dsimp only
      split
      · rename_i reason failed
        exact checkTripleD_lineno failed
      · exact setToken_stringAt (by omega) (by omega)

theorem scanSQuoted_ends (two : quotesLength p ≤ 2) :
    ScanEnds (StringAt p lineno) lineno (scanSQuoted p lineno) := by
  unfold scanSQuoted
  dsimp only
  split_ifs with closed
  · obtain ⟨inside, -⟩ := List.getElem?_eq_some_iff.mp closed
    exact setToken_stringAt (by omega) (by omega)
  · rfl

theorem stampLength_le (p : List UInt8) : stampLength p ≤ p.length := by
  unfold stampLength
  have squeezed := (List.dropWhile_suffix (· = ascii ' ') (l := (p.takeWhile isStamp).reverse)).length_le
  have taken := (List.takeWhile_prefix isStamp (l := p)).length_le
  rw [List.length_reverse] at squeezed
  omega

theorem scanString_ends (lineno : Nat) (p : List UInt8) (dotisspecial : Bool) :
    ScanEnds (StringAt p lineno) lineno (scanString p lineno dotisspecial) := by
  unfold scanString
  split_ifs with tripleS tripleD single double stamp
  · exact scanTripleS_ends lineno p
  · exact scanTriple_ends lineno p
  · exact scanSQuoted_ends (quotesLength_of_not_triple tripleS tripleD)
  · have two := quotesLength_of_not_triple tripleS tripleD
    cases scanned : scanQuoted lineno (p.drop 1) 0 false with
    | error reason => exact scanQuoted_lineno scanned
    | ok n =>
        have inside := scanQuoted_lt scanned
        rw [List.length_drop] at inside
        exact setToken_stringAt (by omega) (by omega)
  · have none := quotesLength_unquoted single double
    exact setToken_stringAt (stampLength_le p) (by omega)
  · have none := quotesLength_unquoted single double
    exact setToken_stringAt (strspn_le _ p) (by omega)

theorem punctuation_ne_string {c : UInt8} {tok : TokenType} (is : punctuation c = some tok) :
    tok ≠ .string := by
  unfold punctuation at is
  split_ifs at is <;> cases is <;> decide

/-- A token that begins at `p`. -/
structure TokenAt (conf p : List UInt8) (t : TokenT) : Prop extends t.Scanned conf where
  ptr : t.ptr = p

theorem StringAt.tokenAt {t : TokenT} (scanned : StringAt p lineno t) (more : p ≠ [])
    (placed : Placed conf p lineno) : TokenAt conf p t where
  placed := by rwa [scanned.ptr, scanned.line]
  fits := by
    rw [scanned.ptr]
    exact scanned.fits
  eof_iff := by
    rw [scanned.eof, scanned.ptr]
    exact ⟨fun eof => (nomatch eof), fun none => absurd none more⟩
  atEof := by
    rw [scanned.eof]
    exact fun eof => nomatch eof
  one := fun _ other => absurd scanned.tok other
  quoted := by
    rw [scanned.ptr]
    exact fun _ => scanned.quoted
  ptr := scanned.ptr

theorem setToken_tokenAt {tok : TokenType} {c : UInt8} (other : tok ≠ .string)
    (placed : Placed conf (c :: p) lineno) :
    TokenAt conf (c :: p) (setToken tok lineno (c :: p) 1) where
  placed := placed
  fits := Nat.succ_pos _
  eof_iff := ⟨fun eof => (nomatch eof), fun none => (nomatch none)⟩
  atEof := fun eof => nomatch eof
  one := fun _ _ => rfl
  quoted := fun same => absurd same other
  ptr := rfl

theorem setEof_tokenAt (placed : Placed conf [] lineno) : TokenAt conf [] (setEof lineno) where
  placed := placed
  fits := Nat.le_refl 0
  eof_iff := ⟨fun _ => rfl, fun _ => rfl⟩
  atEof := fun _ => rfl
  one := fun more => nomatch more
  quoted := fun same => nomatch same
  ptr := rfl

theorem ScanEnds.mono {good better : TokenT → Prop} {scanned : Except ParseError TokenT}
    (ends : ScanEnds good lineno scanned) (more : ∀ t, good t → better t) :
    ScanEnds better lineno scanned := by
  cases scanned with
  | error reason => exact ends
  | ok t => exact more t ends

theorem tokenAt_ends (dotisspecial : Bool) (placed : Placed conf p lineno) :
    ScanEnds (TokenAt conf p) lineno (tokenAt lineno dotisspecial p) := by
  unfold tokenAt
  cases p with
  | nil => exact setEof_tokenAt placed
  | cons c rest =>
      dsimp only
      split_ifs with dot
      · exact setToken_tokenAt (by decide) placed
      · cases is : punctuation c with
        | some tok => exact setToken_tokenAt (punctuation_ne_string is) placed
        | none =>
            exact (scanString_ends lineno (c :: rest) dotisspecial).mono fun t scanned =>
              scanned.tokenAt (List.cons_ne_nil c rest) placed

/-- The token behind `t`. -/
structure TokenT.Follows (conf : List UInt8) (t next : TokenT) : Prop extends
    next.Scanned conf where
  left : next.ptr.length + t.len ≤ t.ptr.length

/-- The next token is behind the current one, or the error names a line of the text. -/
theorem TokenT.next_ends {t : TokenT} (within : t.Within conf) (dotisspecial : Bool) :
    match t.next dotisspecial with
    | .ok next => TokenT.Follows conf t next
    | .error reason => reason.Blames conf := by
  obtain ⟨skipped, eq, noNewline⟩ := exists_skipBlank false (t.ptr.drop t.len)
  have whole : t.ptr = t.ptr.take t.len ++ (skipped ++ skipBlank false (t.ptr.drop t.len)) := by
    rw [← eq, List.take_append_drop]
  have placed := within.placed
  rw [whole] at placed
  have there := placed.skip.skip
  rw [List.count_eq_zero_of_not_mem noNewline, Nat.add_zero] at there
  have ends := tokenAt_ends dotisspecial there
  unfold TokenT.next
  cases scanned : tokenAt (t.lineno + (t.ptr.take t.len).count (ascii '\n')) dotisspecial
      (skipBlank false (t.ptr.drop t.len)) with
  | error reason =>
      rw [scanned] at ends
      exact there.blames ends
  | ok next =>
      rw [scanned] at ends
      refine ⟨ends.toScanned, ?_⟩
      have lengths := congrArg List.length eq
      rw [List.length_drop, List.length_append] at lengths
      have fits := within.fits
      rw [ends.ptr]
      omega

end RenogyX10.Toml
