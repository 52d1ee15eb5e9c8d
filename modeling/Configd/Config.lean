import Configd.Lib.OrdMap
import Configd.Lib.Strings

/-!
# The parsed `zmconfigd.cf`

The data a parsed `zmconfigd.cf` consists of (`internal/config/types.go`) and
the two truth tests of configuration values (`internal/config/consts.go`).  A
section lists what it depends on: the templates it renders, the Postfix
parameters it sets and removes, the services it restarts, and the *required
variables* whose change makes the section stale.

A lookup type is a string in the source.  The six types the program knows are
constructors here; any other spelling is kept in `unknown`, since the program
has a branch for it.
-/

namespace Configd

open Lib

/-- The type of a configuration lookup, as spelled in `zmconfigd.cf`. -/
inductive LookupType
  | var
  | localconfig
  | file
  | mapfile
  | maplocal
  | service
  | unknown (name : String)
  deriving DecidableEq, Repr

def LookupType.text : LookupType → String
  | var => "VAR"
  | localconfig => "LOCAL"
  | file => "FILE"
  | mapfile => "MAPFILE"
  | maplocal => "MAPLOCAL"
  | service => "SERVICE"
  | unknown name => name

/-- The target and the file mode of a rewrite rule (`config.RewriteEntry`). -/
structure RewriteEntry where
  value : String
  mode : String
  deriving DecidableEq

/-- An `if`/`fi` block with its condition and directives (`config.Conditional`). -/
structure Conditional where
  type : LookupType
  key : String
  negated : Bool
  postconf : StrMap String
  postconfd : StrMap String
  /-- The lookups the block depends on while its condition holds. -/
  requiredVars : StrMap LookupType
  deriving DecidableEq

/-- One `SECTION` of `zmconfigd.cf` (`config.MtaConfigSection`). -/
structure MtaConfigSection where
  depends : StrMap Bool := ∅
  rewrites : StrMap RewriteEntry := ∅
  restarts : StrMap Bool := ∅
  /-- The lookups whose change makes the section stale, by variable name. -/
  requiredVars : StrMap LookupType := ∅
  postconf : StrMap String := ∅
  postconfd : StrMap String := ∅
  ldap : StrMap String := ∅
  proxygen : Bool := false
  conditionals : List Conditional := []
  deriving DecidableEq

structure MtaConfig where
  sections : StrMap MtaConfigSection := ∅
  deriving DecidableEq

/-- `config.IsTruthy`: `TRUE` in any case, or `1`. -/
def isTruthy (s : String) : Bool :=
  Strings.equalFold s "TRUE" || s = "1"

/-- `config.hasPrefixFold`: `s` begins with `pre`, ignoring case. -/
def hasPrefixFold (s pre : String) : Bool :=
  Strings.equalFold (String.ofList (s.toList.take pre.toList.length)) pre

/-- `config.IsFalseValue`: empty, or beginning with `0`, `no` or `false`. -/
def isFalseValue (val : String) : Bool :=
  val = "" || Strings.hasPrefix val "0" || hasPrefixFold val "no" || hasPrefixFold val "false"

def isTrueValue (val : String) : Bool :=
  !isFalseValue val

example : ["no", "None", "FALSEy", "00:30", ""].all isFalseValue = true := by decide

end Configd
