import ContractMachine.Json.Value
import ContractMachine.Prestate.Basic

/-!
# Prestate texts

A prestate is written as JSON.  Accounts and storage are maps from texts; where
a key is written twice, the later value counts.
-/

namespace ContractMachine

/-- Reads a map from texts. -/
def Json.map? {α : Type} (read : Json → Option α) (json : Json) :
    Option (Std.TreeMap String α) := do
  let entries ← json.entries?
  entries.foldlM
    (fun map (key, value) => return map.insert key (← read value)) ∅

/-- Reads a text that may be null. -/
def Json.textOrNull? : Json → Option (Option String)
  | .null => some none
  | json => json.text?.map some

/-- Reads one account. -/
def Allocation.ofJson? (json : Json) : Option Allocation := do
  match ← json.record? ["balance", "nonce", "code", "storage"] with
  | [balance, nonce, code, storage] =>
    return {
      balance := ← Json.orDefault Json.text? "" balance
      nonce := ← Json.orDefault Json.count? 0 nonce
      code := ← Json.orDefault Json.textOrNull? none code
      storage := ← Json.orDefault (Json.map? Json.text?) ∅ storage }
  | _ => none

namespace Prestate

/-- Reads the accounts. -/
def ofJson? (json : Json) : Option Prestate := do
  match ← json.record? ["alloc"] with
  | [allocations] =>
    return {
      allocations :=
        ← Json.orDefault (Json.map? Allocation.ofJson?) ∅ allocations }
  | _ => none

/-- Reads a prestate text. -/
def parse (text : String) : Except Error Prestate :=
  match (Json.parse? text).bind ofJson? with
  | some prestate => .ok prestate
  | none => .error .malformed

end Prestate

end ContractMachine
