import Configd.Lib.Json
import Configd.Plan.Types

/-!
# Showing a plan

A plan is shown as JSON and as text (`internal/plan/render.go`).  Both go through
`Redacted`, which hides the values of secret keys, each by the name of the parameter or
attribute it belongs to.

The JSON document loses nothing of what it shows: `reason_of_json`, `directive_of_json`
and `mapfile_of_json` read an entry back.
-/

namespace Configd

open Lib

/-- `Action` as a text. -/
def Action.text : Action → String
  | .restart => "restart"
  | .stop => "stop"
  | .start => "start"
  | .pendingRestart => "pending-restart"

/-! ## Redaction -/

/-- The directive with its value hidden if its key is secret. -/
def Directive.redacted (d : Directive) : Directive :=
  { d with value := forLog d.key d.value }

def Plan.redacted (p : Plan) : Plan :=
  { p with
    postconf := p.postconf.map Directive.redacted
    postconfd := p.postconfd.map Directive.redacted
    ldap := p.ldap.map Directive.redacted }

/-! ## JSON -/

/-- A field that is left out when it is empty. -/
def omitEmpty (name value : String) : List (String × Json) :=
  if value = "" then [] else [(name, .str value)]

def Reason.jsonFields (r : Reason) : List (String × Json) :=
  ("kind", .str r.kind.text) :: (omitEmpty "section" r.sectionName ++
    omitEmpty "type" ((r.type.map LookupType.text).getD "") ++ omitEmpty "key" r.key ++
    omitEmpty "old" r.old ++ omitEmpty "new" r.new ++ omitEmpty "service" r.service ++
    omitEmpty "detail" r.detail)

def reasonsJson (reasons : List Reason) : Json :=
  .arr (reasons.map fun r => .obj r.jsonFields)

def sectionsJson (sections : List String) : Json :=
  .arr (sections.map .str)

def Section.json (s : Section) : Json :=
  .obj [("name", .str s.name), ("reasons", reasonsJson s.reasons)]

def Mapfile.json (m : Mapfile) : Json :=
  .obj (("key", .str m.key) :: ((if m.isLocal then [("local", .bool true)] else []) ++
    [("sections", sectionsJson m.sections), ("reasons", reasonsJson m.reasons)]))

def Rewrite.json (r : Rewrite) : Json :=
  .obj (("source", .str r.source) :: ("target", .str r.target) :: (omitEmpty "mode" r.mode ++
    [("sections", sectionsJson r.sections), ("reasons", reasonsJson r.reasons)]))

def Directive.json (d : Directive) : Json :=
  .obj [("key", .str d.key), ("value", .str d.value), ("sections", sectionsJson d.sections),
    ("reasons", reasonsJson d.reasons)]

def Proxygen.json (p : Proxygen) : Json :=
  .obj [("sections", sectionsJson p.sections), ("reasons", reasonsJson p.reasons)]

def Restart.json (r : Restart) : Json :=
  .obj (("service", .str r.service) :: ("action", .str r.action.text) ::
    ((if r.sections.isEmpty then [] else [("sections", sectionsJson r.sections)]) ++
      [("reasons", reasonsJson r.reasons)]))

def Plan.json (p : Plan) : Json :=
  .obj ([("first_run", .bool p.firstRun), ("sections", .arr (p.sections.map Section.json)),
      ("heal", .arr (p.heal.map Mapfile.json)), ("mapfiles", .arr (p.mapfiles.map Mapfile.json)),
      ("rewrites", .arr (p.rewrites.map Rewrite.json)),
      ("postconf", .arr (p.postconf.map Directive.json)),
      ("postconfd", .arr (p.postconfd.map Directive.json)),
      ("ldap", .arr (p.ldap.map Directive.json))] ++
    ((p.proxygen.map fun request => ("proxygen", request.json)).toList ++
    [("restarts", .arr (p.restarts.map Restart.json)),
      ("deferred_restarts", .arr (p.deferredRestarts.map Restart.json))]))

def Plan.JSON (p : Plan) : String :=
  p.redacted.json.text ++ "\n"

/-! ## Text -/

def Plan.isEmpty (p : Plan) : Bool :=
  p.mapfiles.isEmpty && p.rewrites.isEmpty && p.postconf.isEmpty && p.postconfd.isEmpty &&
    p.ldap.isEmpty && p.proxygen.isNone && p.restarts.isEmpty

/-- The `%-12s` of a text. -/
def padTo12 (s : String) : String :=
  s ++ String.ofList (List.replicate (12 - s.length) ' ')

/-- `textWriter.item`. -/
def textItem (kind subject : String) (reasons : List Reason) : String :=
  padTo12 kind ++ " " ++ subject ++ "\n" ++
    String.join (reasons.map fun r => "    because: " ++ r.text ++ "\n")

def Plan.writeText (plan : Plan) : String :=
  let p := plan.redacted
  if p.isEmpty && p.heal.isEmpty && p.deferredRestarts.isEmpty then "No changes.\n"
  else
    String.join (p.mapfiles.map fun m => textItem "mapfile" m.key m.reasons) ++
    String.join (p.heal.map fun m => textItem "mapfile-sync" m.key m.reasons) ++
    String.join (p.rewrites.map fun r =>
      textItem "rewrite" (r.source ++ " -> " ++ r.target) r.reasons) ++
    String.join (p.postconf.map fun c =>
      textItem "postconf -e" (c.key ++ "=" ++ c.value) c.reasons) ++
    String.join (p.postconfd.map fun c => textItem "postconf -X" c.key c.reasons) ++
    String.join (p.ldap.map fun l => textItem "ldap" (l.key ++ "=" ++ l.value) l.reasons) ++
    ((p.proxygen.map fun request =>
      textItem "proxygen" "regenerate proxy configuration" request.reasons).getD "") ++
    String.join (p.restarts.map fun r => textItem r.action.text r.service r.reasons) ++
    String.join (p.deferredRestarts.map fun r =>
      textItem "deferred" (r.action.text ++ " " ++ r.service) r.reasons)

/-! ## Reading an entry back -/

/-- The fields of a document that is an object. -/
def Json.members : Json → List (String × Json)
  | .obj fields => fields
  | _ => []

def fieldText (name : String) (fields : List (String × Json)) : String :=
  match fields.lookup name with
  | some (.str value) => value
  | _ => ""

theorem fieldText_omitEmpty_append (name other value : String) (fields : List (String × Json)) :
    fieldText name (omitEmpty other value ++ fields) =
      if name = other ∧ value ≠ "" then value else fieldText name fields := by
  by_cases hempty : value = ""
  · simp [omitEmpty, hempty]
  · by_cases hname : name = other
    · simp [omitEmpty, hempty, hname, fieldText]
    · have hbeq : (name == other) = false := beq_false_of_ne hname
      simp [omitEmpty, hempty, hname, fieldText, List.lookup, hbeq]

theorem fieldText_omitEmpty (name other value : String) :
    fieldText name (omitEmpty other value) = if name = other then value else "" := by
  have happend := fieldText_omitEmpty_append name other value []
  rw [List.append_nil] at happend
  rw [happend]
  by_cases hname : name = other
  · by_cases hempty : value = ""
    · simp [hname, hempty, fieldText]
    · simp [hname, hempty]
  · simp [hname, fieldText]

theorem fieldText_jsonFields (r : Reason) :
    fieldText "type" r.jsonFields = (r.type.map LookupType.text).getD "" ∧
      fieldText "key" r.jsonFields = r.key ∧ fieldText "old" r.jsonFields = r.old ∧
      fieldText "new" r.jsonFields = r.new := by
  have hkind : ∀ name : String, name ≠ "kind" → ∀ fields : List (String × Json),
      fieldText name (("kind", .str r.kind.text) :: fields) = fieldText name fields := by
    intro name hne fields
    have hbeq : (name == "kind") = false := beq_false_of_ne hne
    simp [fieldText, List.lookup, hbeq]
  unfold Reason.jsonFields
  generalize (r.type.map LookupType.text).getD "" = type
  refine ⟨?_, ?_, ?_, ?_⟩
  all_goals
    rw [hkind _ (by decide)]
    simp only [List.append_assoc, fieldText_omitEmpty_append, fieldText_omitEmpty]
    simp

/-- **A changed variable is read back from its reason**, up to the spelling of its
type. -/
theorem reason_of_json {r r' : Reason} (heq : r.jsonFields = r'.jsonFields) :
    (r.type.map LookupType.text).getD "" = (r'.type.map LookupType.text).getD "" ∧
      r.key = r'.key ∧ r.old = r'.old ∧ r.new = r'.new := by
  obtain ⟨htype, hkey, hold, hnew⟩ := fieldText_jsonFields r
  obtain ⟨htype', hkey', hold', hnew'⟩ := fieldText_jsonFields r'
  rw [heq] at htype hkey hold hnew
  exact ⟨htype.symm.trans htype', hkey.symm.trans hkey', hold.symm.trans hold',
    hnew.symm.trans hnew'⟩

theorem directive_of_json {d d' : Directive} (heq : d.json = d'.json) :
    d.key = d'.key ∧ d.value = d'.value := by
  simp only [Directive.json, Json.obj.injEq, List.cons.injEq, Prod.mk.injEq, Json.str.injEq] at heq
  exact ⟨heq.1.2, heq.2.1.2⟩

theorem mapfile_of_json {m m' : Mapfile} (heq : m.json = m'.json) :
    m.key = m'.key ∧ m.isLocal = m'.isLocal := by
  cases hlocal : m.isLocal <;> cases hlocal' : m'.isLocal <;>
    simp [Mapfile.json, hlocal, hlocal'] at heq ⊢
  · exact heq.1
  · exact heq.1

/-- **What the JSON of a plan tells** of its sections, mapped files and directives. -/
theorem json_eq_of_JSON {p p' : Plan} (heq : p.JSON = p'.JSON) :
    p.sections.map Section.json = p'.sections.map Section.json ∧
      p.mapfiles.map Mapfile.json = p'.mapfiles.map Mapfile.json ∧
      (p.postconf.map Directive.redacted).map Directive.json =
        (p'.postconf.map Directive.redacted).map Directive.json ∧
      (p.postconfd.map Directive.redacted).map Directive.json =
        (p'.postconfd.map Directive.redacted).map Directive.json ∧
      (p.ldap.map Directive.redacted).map Directive.json =
        (p'.ldap.map Directive.redacted).map Directive.json := by
  have hdoc : p.redacted.json = p'.redacted.json := by
    apply Json.text_injective
    have hlist := congrArg String.toList heq
    simp only [Plan.JSON, String.toList_append, List.append_cancel_right_eq] at hlist
    exact String.toList_inj.mp hlist
  simp only [Plan.json, Json.obj.injEq, List.cons_append, List.cons.injEq, Prod.mk.injEq,
    Json.arr.injEq, true_and, Plan.redacted] at hdoc
  obtain ⟨-, hsections, -, hmapfiles, -, hpostconf, hpostconfd, hldap, -⟩ := hdoc
  exact ⟨hsections, hmapfiles, hpostconf, hpostconfd, hldap⟩

end Configd
