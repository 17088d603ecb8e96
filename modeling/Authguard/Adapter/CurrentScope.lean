import Authguard.Adapter.AccessFilter
import Authguard.Common.SqlScope

/-!
The scope of the current request in SQL (`adapters/rust/src/util.rs`). What the
filter has entered is an argument here, in place of the thread's own cell.
-/

namespace Authguard
open Result

/-- The two access errors that `CurrentScopeError::Access` carries here, and `Compile`. -/
inductive CurrentScopeError
  | contextUnavailable
  | actionMismatch (expected actual : String)
  | compile (error : SqlCompileError)

namespace Rust

/-- A rejected pattern is named by its text. -/
def parsePatterns (patterns : List String) : Except SqlCompileError (List UrnPattern) :=
  collect (fun raw => (UrnPattern.fromStr raw).mapError fun _ => .invalidPattern raw) patterns

def compileScope (mapping : ResourceSqlMapping) (allow deny : List String) :
    Except SqlCompileError SqlScope := do
  let allow ← parsePatterns allow
  let deny ← parsePatterns deny
  mapping.compileScope allow deny

def requireCurrentAccess (current : Option RequestAccess) :
    Except CurrentScopeError RequestAccess :=
  match current with
  | none => .error .contextUnavailable
  | some access => .ok access

def scopeForAction (requestAccess : RequestAccess) (expectedAction : String)
    (mapping : ResourceSqlMapping) : Except CurrentScopeError SqlScope :=
  if requestAccess.action ≠ expectedAction then
    .error (.actionMismatch expectedAction requestAccess.action)
  else
    (compileScope mapping requestAccess.grants.allowResourceUrns
      requestAccess.grants.denyResourceUrns).mapError .compile

def currentScope (current : Option RequestAccess) (mapping : ResourceSqlMapping) :
    Except CurrentScopeError SqlScope := do
  let access ← requireCurrentAccess current
  (compileScope mapping access.grants.allowResourceUrns
    access.grants.denyResourceUrns).mapError .compile

def currentScopeForAction (current : Option RequestAccess) (expectedAction : String)
    (mapping : ResourceSqlMapping) : Except CurrentScopeError SqlScope := do
  let requestAccess ← requireCurrentAccess current
  scopeForAction requestAccess expectedAction mapping

end Rust

theorem Rust.parsePatterns_eq_ok {texts : List String} {patterns : List UrnPattern} :
    Rust.parsePatterns texts = .ok patterns ↔ Authguard.parsePatterns texts = .ok patterns := by
  simp only [Rust.parsePatterns, Authguard.parsePatterns, collect_eq_ok, mapError_ok]

/-- Texts are compiled by the adapter as by the library, but for the wording of an error. -/
theorem Rust.compileScope_eq_ok {mapping : ResourceSqlMapping} {allow deny : List String}
    {sql : SqlScope} : Rust.compileScope mapping allow deny = .ok sql ↔
      mapping.compileScopeStrs allow deny = .ok sql := by
  simp only [Rust.compileScope, ResourceSqlMapping.compileScopeStrs, bind_ok_iff,
    Rust.parsePatterns_eq_ok]

/-- A scope goes with the action it was issued for. -/
theorem Rust.currentScopeForAction_eq_ok {current : Option RequestAccess}
    {expectedAction : String} {mapping : ResourceSqlMapping} {sql : SqlScope} :
    Rust.currentScopeForAction current expectedAction mapping = .ok sql ↔
      (current.map RequestAccess.action) = some expectedAction ∧
        Rust.currentScope current mapping = .ok sql := by
  cases current with
  | none =>
      simp [Rust.currentScopeForAction, Rust.requireCurrentAccess, bind, Except.bind]
  | some access =>
      by_cases haction : access.action = expectedAction <;>
        simp [Rust.currentScopeForAction, Rust.currentScope, Rust.requireCurrentAccess,
          Rust.scopeForAction, haction, bind, Except.bind]

end Authguard
