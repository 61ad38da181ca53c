import RuleScout.Config.Severity
import RuleScout.Json.Printer

/-!
# Rule settings

A setting is a severity and the options of the rule. Without options it is written as the bare
severity, otherwise as a list that starts with the severity.
-/

set_option autoImplicit false

namespace RuleScout

structure Setting where
  severity : Severity
  options : List Value
  deriving DecidableEq, Repr

namespace Setting

def ofSeverity (s : Severity) : Setting := ⟨s, []⟩

def off : Setting := ofSeverity .off

def error : Setting := ofSeverity .error

def isEnabled (s : Setting) : Bool := s.severity.isEnabled

def encode (s : Setting) : Value :=
  match s.options with
  | [] => s.severity.encode
  | options => .array (s.severity.encode :: options)

/-- A list is judged by its head; any other value that is no severity is no setting. -/
def decode : Value → Except SettingFault Setting
  | .array [] => .error .emptyList
  | .array (head :: options) => (Severity.decode head).map (⟨·, options⟩)
  | v =>
    match Severity.decode v with
    | .ok s => .ok (ofSeverity s)
    | .error _ => .error .noSetting

def describe (s : Setting) : String :=
  match s.options with
  | [] => "\"" ++ s.severity.name ++ "\""
  | options =>
    "[\"" ++ s.severity.name ++ "\"" ++
      String.join (options.map fun v => ", " ++ Json.compact v) ++ "]"

theorem decode_encode (s : Setting) : decode s.encode = .ok s := by
  obtain ⟨severity, options⟩ := s
  cases options with
  | nil => cases severity <;> rfl
  | cons v vs => simp [encode, decode, Severity.decode_encode, Except.map]

end Setting

end RuleScout
