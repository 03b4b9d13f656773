import ThawGate.Chain
import ThawGate.Lib.Exec
import ThawGate.Lib.Utf16

/-!
# The reserve report

`attestor/src/source.ts`: `parseReport` takes the document of the reserve source apart. What the program accepts of a
report's numbers and of its URI's length is checked here too (`parseReport_ok`); its date is not.
-/

namespace ThawGate.Attestor

open Borsh Utf16

/-- A parsed document. A number is here what it is as an integer, if it is one. -/
inductive Json where
  | undefined
  | null
  | bool (b : Bool)
  | number (n : Option Int)
  | string (s : JsString)
  | object (get : String → Json)

structure ReserveReport where
  mint : Pubkey
  reserves : Nat
  asOf : Int
  reportUri : JsString

def maxUriBytes : Nat := 200

/-- The value of `/^\d+$/`. -/
def decimal? (s : JsString) : Option Nat :=
  if s ≠ [] ∧ s.all fun u => decide (0x30 ≤ u.toNat) && decide (u.toNat ≤ 0x39) then
    some (s.foldl (fun n u => n * 10 + (u.toNat - 0x30)) 0)
  else none

section source

-- the address of a base58 text, and `Date.parse`, which is `none` for `NaN`
variable (address : JsString → Option Pubkey) (dateParse : JsString → Option Int)

def parseMint (d : Json) : Exec String Pubkey :=
  match d with
  | .string s => Exec.orErr (address s) "source: mint is not a base58 address"
  | _ => .err "source: mint is not a base58 address"

def parseReserves (d : Json) : Exec String Nat :=
  match d with
  | .string s =>
    match decimal? s with
    | some reserves => if 2 ^ 64 - 1 < reserves then .err "source: reserves exceed u64" else .ok reserves
    | none => .err "source: reserves must be a decimal integer string in base units"
  | _ => .err "source: reserves must be a decimal integer string in base units"

def parseAsOf (d : Json) : Exec String Int :=
  match d with
  | .number (some n) =>
    -- `Number.isSafeInteger`
    if n.natAbs ≤ 2 ^ 53 - 1 then .ok n else .err "source: asOf must be unix seconds or an ISO 8601 date"
  | .string s =>
    match decimal? s, dateParse s with
    | some n, _ => .ok n
    | none, some ms => .ok (ms.fdiv 1000)
    | none, none => .err "source: asOf must be unix seconds or an ISO 8601 date"
  | _ => .err "source: asOf must be unix seconds or an ISO 8601 date"

def parseUri (d : Json) : Exec String JsString :=
  match d with
  | .string s =>
    if maxUriBytes < (utf8 s).length then .err ("source: reportUri is over " ++ toString maxUriBytes ++ " bytes")
    else .ok s
  | _ => .err "source: reportUri must be a string"

def parseReport (doc : Json) : Exec String ReserveReport :=
  match doc with
  | .object d => do
    let mint ← parseMint address (d "mint")
    let reserves ← parseReserves (d "reserves")
    let asOf ← parseAsOf dateParse (d "asOf")
    let reportUri ← parseUri (d "reportUri")
    pure ⟨mint, reserves, asOf, reportUri⟩
  | _ => .err "source: expected a JSON object"

end source

/-- The reserves are a `u64`, and the URI is not longer than the program takes it. -/
structure ReserveReport.Valid (report : ReserveReport) : Prop where
  reserves : report.reserves < 2 ^ 64
  reportUri : (utf8 report.reportUri).length ≤ maxUriBytes

theorem parseReserves_ok {d : Json} {reserves : Nat} (h : parseReserves d = .ok reserves) : reserves < 2 ^ 64 := by
  rw [parseReserves.eq_def] at h
  cases d with
  | string s =>
    dsimp only at h
    cases hs : decimal? s with
    | none => simp [hs] at h
    | some n =>
      simp only [hs] at h
      split at h
      · cases h
      · cases h
        omega
  | _ => cases h

theorem parseUri_ok {d : Json} {uri : JsString} (h : parseUri d = .ok uri) : (utf8 uri).length ≤ maxUriBytes := by
  rw [parseUri.eq_def] at h
  cases d with
  | string s =>
    dsimp only at h
    split at h
    · cases h
    · cases h
      omega
  | _ => cases h

theorem parseReport_ok {address : JsString → Option Pubkey} {dateParse : JsString → Option Int} {doc : Json}
    {report : ReserveReport} (h : parseReport address dateParse doc = .ok report) : report.Valid := by
  cases doc with
  | object d =>
    obtain ⟨mint, -, h⟩ := Exec.bind_eq_ok.1 h
    obtain ⟨reserves, hreserves, h⟩ := Exec.bind_eq_ok.1 h
    obtain ⟨asOf, -, h⟩ := Exec.bind_eq_ok.1 h
    obtain ⟨uri, huri, h⟩ := Exec.bind_eq_ok.1 h
    cases h
    exact ⟨parseReserves_ok hreserves, parseUri_ok huri⟩
  | _ => cases h

end ThawGate.Attestor
