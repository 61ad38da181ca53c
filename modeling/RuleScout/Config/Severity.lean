import RuleScout.Value

/-!
# Severities

A severity is written as a name, in any mix of upper and lower case, or as a level.
-/

set_option autoImplicit false

namespace RuleScout

inductive Severity where
  | off
  | warn
  | error
  deriving DecidableEq, Repr

inductive SettingFault where
  | unknownLevel (n : Nat)
  | unknownName (lowered : String)
  | noSeverity
  | noSetting
  | emptyList
  deriving DecidableEq, Repr

def SettingFault.message : SettingFault → String
  | .unknownLevel n => "invalid severity level " ++ toString n
  | .unknownName lowered => "invalid severity '" ++ lowered ++ "'"
  | .noSeverity => "data did not match any variant of untagged enum SeverityRepr"
  | .noSetting => "data did not match any variant of untagged enum RuleSettingRepr"
  | .emptyList => "rule setting array must start with a severity"

namespace Severity

def level : Severity → Nat
  | .off => 0
  | .warn => 1
  | .error => 2

def name : Severity → String
  | .off => "off"
  | .warn => "warn"
  | .error => "error"

def isEnabled (s : Severity) : Bool := s ≠ .off

def ofLevel? : Nat → Option Severity
  | 0 => some .off
  | 1 => some .warn
  | 2 => some .error
  | _ => none

def ofName? (lowered : String) : Option Severity :=
  match lowered with
  | "off" => some .off
  | "warn" | "warning" => some .warn
  | "error" => some .error
  | _ => none

def lower (name : String) : String := String.ofList (name.toList.map Char.toLower)

def decode : Value → Except SettingFault Severity
  | .int (.ofNat n) =>
    match ofLevel? n with
    | some s => .ok s
    | none => .error (.unknownLevel n)
  | .string name =>
    match ofName? (lower name) with
    | some s => .ok s
    | none => .error (.unknownName (lower name))
  | _ => .error .noSeverity

def encode (s : Severity) : Value := .string s.name

theorem decode_encode (s : Severity) : decode s.encode = .ok s := by
  cases s <;> rfl

end Severity

end RuleScout
