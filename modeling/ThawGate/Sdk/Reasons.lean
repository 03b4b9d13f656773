import ThawGate.Logs.Frames

/-!
# Reason codes

`sdk/src/gate/reasons.ts`: the gate's decision and the failing program, read from the logs of a
transaction (`parseGateLogs`), and the verdict on a permissionless thaw or freeze (`classifyGateLogs`).
-/

namespace ThawGate.Sdk

open Logs

def thawgateGateId : Text := "THAW2daLXyUtCLtTsJWDTKZctiAGmGX4wT1kqKXugUZ".toList

inductive GateAction
  | thaw
  | freeze
  deriving DecidableEq

inductive DecisionKind
  | allow
  | deny
  deriving DecidableEq

/-- What each code says about the owner, as the second half of a sentence. -/
def facts : List (String × String) :=
  [("KYC", "the owner holds a live SAS attestation from the policy's credential and schema"),
    ("PDA_ALLOWLISTED", "the owner is a program address (PDA) on the issuer's allowlist (BypassForPdas)"),
    ("ALLOWLISTED", "the owner is on the issuer's allowlist"),
    ("CLEAN", "no policy check flags the owner"),
    ("BLACKLISTED", "the owner is on the issuer's blacklist"),
    ("NOT_ALLOWLISTED", "the policy is allowlist-only and the owner is not on the issuer's allowlist"),
    ("NO_CREDENTIAL",
      "the owner has no SAS attestation from the policy's credential and schema (never issued, or revoked)"),
    ("CREDENTIAL_EXPIRED", "the owner's SAS attestation has expired"),
    ("KYC_LEVEL_TOO_LOW", "the owner's kyc_level is below the policy minimum"),
    ("NO_IMMUTABLE_OWNER", "the token account lacks the ImmutableOwner extension (use an associated token account)"),
    ("MISSING_ACCOUNTS", "the transaction left out accounts the policy needs (resolve the gate's extra account metas)"),
    ("BAD_POLICY", "the policy account is not this mint's ThawGate policy"),
    ("BAD_REGISTRY_ENTRY", "a blacklist or allowlist account has the wrong owner, type or fields"),
    ("BAD_CREDENTIAL",
      "the account at the attestation address is not a SAS attestation of this credential, schema and owner"),
    ("COMPLIANT", "the owner passes the policy")]

/-- The gate's custom error number of each deny code. -/
def gateDenyErrors : Nat → Option String
  | 6009 => some "MISSING_ACCOUNTS"
  | 6010 => some "BAD_POLICY"
  | 6011 => some "BAD_REGISTRY_ENTRY"
  | 6012 => some "BAD_CREDENTIAL"
  | 6013 => some "NO_IMMUTABLE_OWNER"
  | 6014 => some "BLACKLISTED"
  | 6015 => some "NOT_ALLOWLISTED"
  | 6016 => some "NO_CREDENTIAL"
  | 6017 => some "CREDENTIAL_EXPIRED"
  | 6018 => some "KYC_LEVEL_TOO_LOW"
  | 6019 => some "COMPLIANT"
  | _ => none

def describe (decision : DecisionKind) (code : String) (action : GateAction) : String :=
  let fact := (facts.lookup code).getD ("the gate returned " ++ code ++ ", a code this SDK version doesn't know")
  match action, decision with
  | .thaw, .allow => "Unlock allowed: " ++ fact ++ "."
  | .thaw, .deny => "Unlock denied: " ++ fact ++ "."
  | .freeze, .allow => "Freezable by anyone: " ++ fact ++ "."
  | .freeze, .deny => if code = "COMPLIANT" then "Not freezable: " ++ fact ++ "." else "Freeze denied: " ++ fact ++ "."

/-! ### Lines -/

/-- `failed: (.*)$` -/
def failedTail (tail : Text) : Option Text :=
  (tail.dropPrefix? "failed: ".toList).bind fun message => if oneLine message then some message else none

/-- `EXIT`: `^Program (\S+) (?:success|failed: .*)$` -/
def exitLine (line : Text) : Bool :=
  (programLine line).any fun (_, tail) => tail == "success".toList || (failedTail tail).isSome

/-- `FAILED`: `^Program (\S+) failed: (.*)$` -/
def failedLine (line : Text) : Option (Text × Text) :=
  (programLine line).bind fun (word, tail) => (failedTail tail).map (word, ·)

/-- `[A-Z_]` -/
def isCodeLetter (c : Char) : Bool := c.isUpper || c == '_'

/-- `([A-Z_]+)`, behind the decision `kind`. -/
def codeOf (kind : DecisionKind) (text : Text) : Option (DecisionKind × Text) :=
  match text.takeWhile isCodeLetter with
  | [] => none
  | code => some (kind, code)

/-- `TG:(ALLOW|DENY):([A-Z_]+)` from the text's first character on. -/
def reasonAt (text : Text) : Option (DecisionKind × Text) :=
  ((text.dropPrefix? "TG:ALLOW:".toList).bind (codeOf .allow)).or
    ((text.dropPrefix? "TG:DENY:".toList).bind (codeOf .deny))

/-- `.*?TG:(ALLOW|DENY):([A-Z_]+)`: the first place in the text's first line where it matches. -/
def reasonOf : Text → Option (DecisionKind × Text)
  | [] => none
  | c :: rest => (reasonAt (c :: rest)).or (if isLineTerminator c then none else reasonOf rest)

/-- `TG_LINE` -/
def tgLine (line : Text) : Option (DecisionKind × Text) := (line.dropPrefix? "Program log: ".toList).bind reasonOf

section lines

variable {word : Text} (h : IsWord word) (tail : Text)
include h

theorem exitLine_text : exitLine (programText word tail) = (tail == "success".toList || (failedTail tail).isSome) := by
  rw [exitLine, programLine_text h, Option.any_some]

theorem failedLine_text : failedLine (programText word tail) = (failedTail tail).map (word, ·) := by
  rw [failedLine, programLine_text h, Option.bind_some]

theorem tgLine_text : tgLine (programText word tail) = if word = "log:".toList then reasonOf tail else none := by
  rw [tgLine, dropPrefix?_text h ⟨by decide, by decide⟩ (by decide : _ = programPrefix ++ ("log:".toList ++ [' ']))]
  by_cases hword : word = "log:".toList
  · rw [if_pos hword, if_pos hword, Option.bind_some]
  · rw [if_neg hword, if_neg hword, Option.bind_none]

end lines

/-- A line that is not the end of a frame has no failure. -/
theorem failedLine_of_exitLine {line : Text} (h : exitLine line = false) : failedLine line = none := by
  rw [failedLine]
  cases hline : programLine line with
  | none => rfl
  | some parts =>
    rw [exitLine, hline, Option.any_some, Bool.or_eq_false_iff] at h
    have htail : failedTail parts.2 = none := Option.isNone_iff_eq_none.1 (Option.isSome_eq_false_iff.1 h.2)
    show (failedTail parts.2).map (parts.1, ·) = none
    rw [htail, Option.map_none]

/-! ### parseGateLogs -/

structure GateLogs where
  /-- A frame of the gating program appears in the logs. -/
  gateInvoked : Bool
  /-- The gate's `TG:` line: the first one inside one of its own frames. -/
  decision : Option (DecisionKind × Text)
  /-- The first `Program <id> failed: <message>` line. -/
  failure : Option (Text × Text)
  deriving DecidableEq

/-- The loop's variables. -/
structure GateScan extends GateLogs where
  stack : List Text
  deriving DecidableEq

/-- The loop's body. -/
def GateScan.read (gateId : Text) (s : GateScan) (line : Text) : GateScan :=
  match invokeLine line with
  | some program => { s with stack := program :: s.stack, gateInvoked := s.gateInvoked || program == gateId }
  | none =>
    let s := { s with failure := s.failure.or (failedLine line) }
    if exitLine line then { s with stack := s.stack.tail }
    else if s.decision = none ∧ s.stack.head? = some gateId then { s with decision := tgLine line }
    else s

theorem GateScan.read_stack (gateId : Text) (s : GateScan) (line : Text) :
    (s.read gateId line).stack = stackAfter exitLine line s.stack := by
  rw [GateScan.read, stackAfter]
  cases invokeLine line with
  | some program => rfl
  | none =>
    dsimp only
    by_cases hexit : exitLine line = true
    · rw [if_pos hexit, if_pos hexit]
    · rw [if_neg hexit, if_neg hexit, apply_ite GateScan.stack, ite_self]

theorem GateScan.read_quiet {gateId : Text} {s : GateScan} {line : Text} (h : Quiet exitLine line) :
    s.read gateId line = { s with
      decision := if s.decision = none ∧ s.stack.head? = some gateId then tgLine line else s.decision } := by
  obtain ⟨hinvoke, hexit⟩ := h
  rw [GateScan.read, hinvoke]
  dsimp only
  rw [hexit, if_neg Bool.false_ne_true, failedLine_of_exitLine hexit, Option.or_none]
  by_cases hgate : s.decision = none ∧ s.stack.head? = some gateId
  · rw [if_pos hgate, if_pos hgate]
  · rw [if_neg hgate, if_neg hgate]

def scanGateLogs (logs : List Text) (gateId : Text) : GateScan :=
  logs.foldl (GateScan.read gateId) ⟨⟨false, none, none⟩, []⟩

theorem scanGateLogs_stack (logs : List Text) (gateId : Text) :
    (scanGateLogs logs gateId).stack = logs.foldl (fun stack line => stackAfter exitLine line stack) [] := by
  rw [scanGateLogs]
  exact (List.foldl_hom GateScan.stack fun s line => (s.read_stack gateId line).symm).symm

def parseGateLogs (logs : List Text) (gateId : Text) : GateLogs := (scanGateLogs logs gateId).toGateLogs

/-! ### classifyGateLogs -/

inductive GateVerdict
  | allowed (code reason : String)
  | denied (code reason : String)
  | skipped (reason : String)
  | failed (program message reason : String)
  deriving DecidableEq

namespace GateVerdict

def isAllowed : GateVerdict → Bool
  | allowed _ _ => true
  | _ => false

def isDenied : GateVerdict → Bool
  | denied _ _ => true
  | _ => false

def isFailed : GateVerdict → Bool
  | failed _ _ _ => true
  | _ => false

def code? : GateVerdict → Option String
  | allowed code _ => some code
  | denied code _ => some code
  | _ => none

def reason : GateVerdict → String
  | allowed _ reason => reason
  | denied _ reason => reason
  | skipped reason => reason
  | failed _ _ reason => reason

end GateVerdict

def classifyGateLogs (logs : List Text) (succeeded : Bool) (action : GateAction) (gateId : Text)
    (errorCode : Option Nat) : GateVerdict :=
  let parsed := parseGateLogs logs gateId
  if succeeded then
    if parsed.gateInvoked then
      let code := match parsed.decision with
        | some (.allow, code) => String.ofList code
        | _ => "UNKNOWN"
      .allowed code (describe .allow code action)
    else
      let state := match action with
        | .thaw => "thawed"
        | .freeze => "frozen"
      .skipped ("No change: the account is already " ++ state ++ ", so Token ACL did not call the gate.")
  else
    match parsed.decision with
    | some (.deny, code) => .denied (String.ofList code) (describe .deny (String.ofList code) action)
    | _ =>
      -- cut logs usually lack the gate's own failed line too
      let gateFailed := parsed.failure.all (·.1 == gateId)
      match if gateFailed then errorCode.bind gateDenyErrors else none with
      | some code => .denied code (describe .deny code action)
      | none =>
        match parsed.failure with
        | some (program, message) =>
          .failed (String.ofList program) (String.ofList message) ("Failed before the gate decided: " ++
            String.ofList program ++ " returned \"" ++ String.ofList message ++ "\".")
        | none => .failed "unknown" "no logs" "Failed, and the logs give no reason."

end ThawGate.Sdk
