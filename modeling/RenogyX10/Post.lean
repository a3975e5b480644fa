import RenogyX10.Influx.Types
import RenogyX10.Lib.Http
import RenogyX10.Toml.Scalars

set_option autoImplicit false

namespace RenogyX10.Post

open Http
open Influx (decimal decimalInt)
open Toml (text)

/-- Where a value is posted to. -/
structure Target where
  org : List UInt8
  database : List UInt8
  hostname : List UInt8
  port : Int
  token : List UInt8

/-- Its texts stay on their lines. -/
structure Target.Clean (target : Target) : Prop where
  org : Single target.org
  database : Single target.database
  hostname : Single target.hostname
  token : Single target.token

def headOf (target : Target) (length : Nat) : List Line :=
  [text "POST /api/v2/write?org=" ++ target.org ++ text "&bucket=" ++ target.database ++
      text " HTTP/1.1",
    text "Host: " ++ target.hostname ++ text ":" ++ decimalInt target.port,
    text "Authorization: Token " ++ target.token,
    text "Content-Type: text/plain; charset=utf-8",
    text "Accept: application/json",
    text "Content-Length: " ++ decimal length]

def postOf (target : Target) (line : List UInt8) : Message := ⟨headOf target line.length, line⟩

theorem single_text {literal : String}
    (one : 13 ∉ text literal ∧ 10 ∉ text literal) : Single (text literal) :=
  ⟨one.1, one.2⟩

theorem single_digits {digits : List UInt8} (digit : ∀ c ∈ digits, CString.isdigit c = true) :
    Single digits := by
  constructor
  · exact fun cr => absurd (digit 13 cr) (by decide)
  · exact fun lf => absurd (digit 10 lf) (by decide)

theorem isdigit_decimal (n : Nat) : ∀ c ∈ decimal n, CString.isdigit c = true :=
  Toml.isdigit_decimal n

theorem single_decimalInt (value : Int) : Single (decimalInt value) := by
  unfold decimalInt
  split
  · exact (single_text (by decide)).append (single_digits (isdigit_decimal _))
  · exact single_digits (isdigit_decimal _)

theorem number_decimal (n : Nat) : number (decimal n) = some n := by
  obtain ⟨c, rest, nonempty, -⟩ := Toml.decimal_cons n
  have some : decimal n ≠ [] := by
    intro none
    rw [show decimal n = c :: rest from nonempty] at none
    cases none
  have digits : (decimal n).all CString.isdigit = true := List.all_eq_true.mpr (isdigit_decimal n)
  rw [number, if_pos ⟨some, digits⟩]
  exact congrArg Option.some (Toml.ofDigits_decimal n)

theorem fieldName_text (name : String) (blank value : List UInt8) {front : List UInt8}
    (split : front = text name ++ colon :: blank) (one : colon ∉ text name) :
    fieldName (front ++ value) = (text name).map lower := by
  rw [split, List.append_assoc]
  exact fieldName_append one

variable {target : Target} {length : Nat}

theorem headOf_single (clean : target.Clean) :
    ∀ line ∈ headOf target length, line ≠ [] ∧ Single line := by
  have nonempty {literal : String} {value : List UInt8} (some : text literal ≠ []) :
      text literal ++ value ≠ [] := fun none => some (List.append_eq_nil_iff.mp none).1
  unfold headOf
  simp only [List.forall_mem_cons, List.append_assoc]
  refine ⟨⟨nonempty (by decide), ?_⟩, ⟨nonempty (by decide), ?_⟩, ⟨nonempty (by decide), ?_⟩,
    ⟨by decide, ?_⟩, ⟨by decide, ?_⟩, ⟨nonempty (by decide), ?_⟩, nofun⟩
  · exact (single_text (by decide)).append (clean.org.append ((single_text (by decide)).append
      (clean.database.append (single_text (by decide)))))
  · exact (single_text (by decide)).append (clean.hostname.append ((single_text (by decide)).append
      (single_decimalInt _)))
  · exact (single_text (by decide)).append clean.token
  · exact single_text (by decide)
  · exact single_text (by decide)
  · exact (single_text (by decide)).append (single_digits (isdigit_decimal _))

/-- Only the last field gives a length. -/
theorem contentLength_headOf (target : Target) (length : Nat) :
    contentLength (headOf target length) = some length := by
  have host (value : List UInt8) : fieldName (text "Host: " ++ value) = text "host" :=
    (fieldName_text "Host" [32] value (by decide) (by decide)).trans (by decide)
  have auth (value : List UInt8) :
      fieldName (text "Authorization: Token " ++ value) = text "authorization" :=
    (fieldName_text "Authorization" (text " Token ") value (by decide) (by decide)).trans
      (by decide)
  have own : fieldName (text "Content-Length: " ++ decimal length) = text "content-length" :=
    (fieldName_text "Content-Length" [32] _ (by decide) (by decide)).trans (by decide)
  have value : fieldValue (text "Content-Length: " ++ decimal length) = decimal length := by
    rw [show text "Content-Length: " = text "Content-Length" ++ colon :: [CString.ascii ' '] by decide,
      List.append_assoc]
    exact fieldValue_append (by decide) (isdigit_decimal length)
  have names : (headOf target length).tail.map fieldName = [text "host", text "authorization",
      text "content-type", text "accept", text "content-length"] := by
    simp only [headOf, List.tail_cons, List.map_cons, List.map_nil, List.append_assoc, host, auth, own]
    decide
  have coded : (headOf target length).tail.any (named "transfer-encoding") = false := by
    have any : ((headOf target length).tail.map fieldName).any
        (fun name => decide (name = "transfer-encoding".toList.map CString.ascii)) = false := by
      rw [names]
      decide
    rwa [List.any_map] at any
  have skip {line : Line} {name : List UInt8} (read : fieldName line = name)
      (other : name ≠ "content-length".toList.map CString.ascii) :
      ¬ named "content-length" line = true := by
    rw [named, read]
    exact fun same => other (of_decide_eq_true same)
  have only : (headOf target length).tail.filter (named "content-length") =
      [text "Content-Length: " ++ decimal length] := by
    rw [headOf, List.tail_cons, List.append_assoc, List.append_assoc,
      List.filter_cons_of_neg (skip (host _) (by decide)),
      List.filter_cons_of_neg (skip (auth _) (by decide)),
      List.filter_cons_of_neg (by decide), List.filter_cons_of_neg (by decide),
      List.filter_cons_of_pos, List.filter_nil]
    rw [named, own]
    decide
  rw [contentLength, coded, if_neg Bool.false_ne_true, only]
  dsimp only
  rw [value, number_decimal]

theorem postOf_bytes (target : Target) (line : List UInt8) :
    (postOf target line).bytes =
      text "POST /api/v2/write?org=" ++ target.org ++ text "&bucket=" ++ target.database ++
        text " HTTP/1.1\r\n" ++
        text "Host: " ++ target.hostname ++ text ":" ++ decimalInt target.port ++ text "\r\n" ++
        text "Authorization: Token " ++ target.token ++ text "\r\n" ++
        text "Content-Type: text/plain; charset=utf-8\r\n" ++
        text "Accept: application/json\r\n" ++
        text "Content-Length: " ++ decimal line.length ++ text "\r\n\r\n" ++ line := by
  have version : text " HTTP/1.1\r\n" = text " HTTP/1.1" ++ crlf := by decide
  have ends : text "\r\n" = crlf := by decide
  have type : text "Content-Type: text/plain; charset=utf-8\r\n" =
      text "Content-Type: text/plain; charset=utf-8" ++ crlf := by decide
  have accept : text "Accept: application/json\r\n" = text "Accept: application/json" ++ crlf := by
    decide
  have blank : text "\r\n\r\n" = crlf ++ crlf := by decide
  rw [version, ends, type, accept, blank]
  simp only [Message.bytes, postOf, headOf, List.flatMap_cons, List.flatMap_nil, List.append_assoc,
    List.nil_append]

theorem postOf_wellFormed (clean : target.Clean) (line : List UInt8) :
    (postOf target line).WellFormed :=
  ⟨nofun, headOf_single clean, contentLength_headOf target line.length⟩

end RenogyX10.Post
