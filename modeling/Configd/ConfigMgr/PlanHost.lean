import Configd.ConfigMgr.Observe
import Configd.ConfigMgr.Rewrite
import Configd.Mtaops.Executor

/-!
# Planning against the host

`ConfigManager.PlanHost` (`internal/configmgr/manager_plan_host.go`) tells what a forced rewrite
would change.  It computes a *candidate* plan in which every section counts as changed, compares
its actions with the host, and computes the plan again with the differences (the *drift*);
`pruneToHost` keeps the actions whose target drifted.

Next to it stand the operations that carry an action out, which the source writes
independently.  `planHost_meets` says what is kept: for a rewrite, a `POSTCONF` and a
`POSTCONFD` exactly what would change, and what cannot be compared; for a mapped file as far as
the comparison reads the file and the value the way the executor does.
-/

namespace Configd

open Lib

/-! ## What is read -/

structure HostPlanner where
  snap : Snapshot
  conf : MtaConfig
  /-- `zmconfigd_sections`. -/
  configured : List String := []
  systemd : Bool := false
  fs : Files
  baseDir : String
  file : String → Option HostFile
  /-- The template of a source, and what its lines are transformed to. -/
  template : String → TemplateEnv
  mta : Postfix
  /-- The permission bits of a new file, after the umask. -/
  newPerm : Nat := 0o640
  /-- The `%q` of a text. -/
  quote : String → String
  /-- The text of the error when this value cannot be resolved. -/
  errorText : String → String

inductive PlanHostError
  | outOfScope (name : String)
  | unknownSection (name : String)
  | allServicesDisabled
  | render (source : String) (err : RewriteError)
  | readPostconf (key : String)
  deriving DecidableEq

/-- The bytes of a text. -/
def utf8 (text : String) : List UInt8 :=
  text.toUTF8.toList

/-- `FileMode.Perm` of a mode. -/
def filePerm (mode : Int) : Nat :=
  (mode % 512).toNat

/-- The `%04o` of a number. -/
def octal (n : Nat) : String :=
  let digits := Nat.toDigits 8 n
  String.ofList (List.replicate (4 - digits.length) '0' ++ digits)

namespace HostPlanner

variable (hp : HostPlanner)

def narrowScope (requested : List String) : Except PlanHostError (List String) :=
  if hp.configured.isEmpty then .ok requested
  else if requested.isEmpty then .ok hp.configured
  else
    match requested.find? fun name => name ∉ hp.configured with
    | some name => .error (.outOfScope name)
    | none => .ok requested

def input (scope : List String) : Input where
  prev := observe hp.fs hp.snap hp.conf
  cur := observe hp.fs hp.snap hp.conf
  conf := hp.conf
  tracked := (observe hp.fs hp.snap hp.conf).serviceNames.foldl
    (fun tracked svc => tracked.insert svc .running) ∅
  scope := scope
  assumeChanged := true
  systemd := hp.systemd

/-! ## The comparison -/

/-- `ConfigManager.mappedFileBase64`: the value of a mapped key as base 64.  A value
that is base 64 already is taken as it is. -/
def mappedFileBase64 (key : String) : String :=
  let val := (hp.snap.var key).getD ""
  if val = "" then ""
  else if (Base64.decode val).isSome then val
  else Base64.encode (utf8 val)

def mappedPath (relPath : String) : String :=
  hp.baseDir ++ "/" ++ relPath

/-- `ConfigManager.mapfileDrift`: how the file differs from the value, or nothing. -/
def mapfileDrift (m : Mapfile) : String :=
  match mappedFiles m.key with
  | none => ""
  | some relPath =>
    if m.isLocal then ""
    else
      let path := hp.mappedPath relPath
      match Base64.decode (hp.mappedFileBase64 m.key) with
      | none => ""
      | some want =>
        match want, HostFile.read (hp.file path) with
        | [], some _ => path ++ " exists but its value is unset; it would be removed"
        | [], none => ""
        | _ :: _, none => path ++ " is missing; it would be written"
        | _ :: _, some content =>
          if content = want then ""
          else path ++ " differs from " ++ m.key ++ "; it would be rewritten"

/-- `ConfigManager.RenderRewrite`: the content and the permission bits of the target. -/
def renderRewrite (r : Rewrite) : Except PlanHostError (List UInt8 × Nat) :=
  match rewriteFileMode r.mode with
  | none => .error (.render r.source .mode)
  | some mode =>
    match rewriteTransform (hp.template r.source) fun _ => true with
    | (_, some err) => .error (.render r.source err)
    | (text, none) => .ok (utf8 text, filePerm mode)

def targetPath (r : Rewrite) : String :=
  hp.baseDir ++ "/" ++ r.target

def rewriteDrift (r : Rewrite) : Except PlanHostError String :=
  let destPath := hp.targetPath r
  match hp.renderRewrite r with
  | .error err => .error err
  | .ok (rendered, perm) =>
    match hp.file destPath with
    | none => .ok (destPath ++ " is missing; it would be written")
    | some f =>
      if !f.statable then .ok (destPath ++ " is missing; it would be written")
      else if !f.readable then .ok (destPath ++ " is unreadable; it would be rewritten")
      else if f.content ≠ rendered then
        .ok (destPath ++ " content differs from the rendered template")
      else if f.perm ≠ perm then
        .ok (destPath ++ " mode " ++ octal f.perm ++ " would become " ++ octal perm)
      else .ok ""

/-- The value `POSTCONF` sets, when it can be resolved. -/
def postconfValue (p : Directive) : Option String :=
  match resolveValueSpec hp.fs hp.snap p.value with
  | .ok resolved => some (normalizePostconfBool p.value resolved)
  | .error _ => none

def postconfDrift (p : Directive) : Except PlanHostError String :=
  match hp.postconfValue p with
  | none => .ok ("value cannot be resolved: " ++ hp.errorText p.value)
  | some value =>
    let want := normalizePostconfValue value
    match readPostconf hp.mta p.key false with
    | none => .error (.readPostconf p.key)
    | some (value, _) =>
      if Strings.fields value = Strings.fields want then .ok ""
      else .ok ("main.cf " ++ p.key ++ " = " ++ hp.quote (forLog p.key value) ++
        " would become " ++ hp.quote (forLog p.key want))

/-- The drift of a `POSTCONFD`, as `observeActionDrift` describes it. -/
def postconfdDrift (p : Directive) : Except PlanHostError String :=
  match readPostconf hp.mta p.key true with
  | none => .error (.readPostconf p.key)
  | some (_, set) =>
    .ok (if set then "main.cf sets " ++ p.key ++ ", which would be removed" else "")

/-- One loop of `observeActionDrift`: the drift of each entry, by its key. -/
def observeAll {T : Type} (key : T → String) (drift : T → Except PlanHostError String) :
    List T → StrMap String → Except PlanHostError (StrMap String)
  | [], seen => .ok seen
  | it :: rest, seen =>
    match drift it with
    | .error err => .error err
    | .ok text =>
      observeAll key drift rest (if text = "" then seen else seen.insert (key it) text)

def observeHost (cand : Plan) : Except PlanHostError Host := do
  let mapfiles ← observeAll Mapfile.key (fun m => .ok (hp.mapfileDrift m))
    (cand.heal ++ cand.mapfiles) ∅
  let rewrites ← observeAll Rewrite.source hp.rewriteDrift cand.rewrites ∅
  let postconf ← observeAll Directive.key hp.postconfDrift cand.postconf ∅
  let postconfd ← observeAll Directive.key hp.postconfdDrift cand.postconfd ∅
  let ldap ← observeAll Directive.key
    (fun _ => .ok "cn=config value is not read by plan; the attribute would be written")
    cand.ldap ∅
  return { mapfiles, rewrites, postconf, postconfd, ldap }

/-- `proxygenDrift`: a section of the request is among those that would change. -/
def proxygenDrift (candidate : Proxygen) (pruned : Plan) : String :=
  match candidate.sections.find? fun s => s ∈ pruned.sections.map Section.name with
  | some s => "proxy configuration depends on section " ++ s ++ ", which would change " ++
      "(generated proxy files are not rendered by plan)"
  | none => ""

def computeOrFail (input : Input) : Except PlanHostError Plan :=
  match compute input with
  | some pl => .ok pl
  | none => .error .allServicesDisabled

/-- The check of `PlanHost` that the sections of the scope are defined. -/
def checkSections (scope : List String) : Except PlanHostError Unit :=
  match scope.find? fun name => !hp.conf.sections.contains name with
  | some name => .error (.unknownSection name)
  | none => .ok ()

/-- `ConfigManager.PlanHost`, with the candidate plan it compared. -/
def planHost (requested : List String) : Except PlanHostError (Plan × Plan) := do
  let scope ← hp.narrowScope requested
  hp.checkSections scope
  let input := hp.input scope
  let candidate ← computeOrFail input
  let host ← hp.observeHost candidate
  let pruned ← computeOrFail { input with host := some host }
  match candidate.proxygen with
  | none => return (candidate, pruned)
  | some request =>
    let host := { host with proxygen := proxygenDrift request pruned }
    return (candidate, ← computeOrFail { input with host := some host })

/-! ## Carrying out one action -/

/-- The target of a rewrite after the rewrite alone, when no file operation fails.
What was there before plays no part in a rewrite that replaces it. -/
def afterRewrite (r : Rewrite) : Option HostFile :=
  let job : RewriteJob := ⟨r.source, hp.targetPath r, r.mode⟩
  match (processRewrite { template := hp.template r.source } job none).1.target with
  | some new => some { content := utf8 new.content, perm := filePerm new.mode }
  | none => hp.file (hp.targetPath r)

/-- The parameters of Postfix after the `POSTCONF` alone.  A value that cannot be
resolved fails. -/
def afterPostconf (p : Directive) : Postfix :=
  match hp.postconfValue p with
  | some value => executePostconf hp.mta p.key value
  | none => hp.mta

/-- A mapped file after its sync alone.  A key without a file fails. -/
def afterSync (m : Mapfile) (relPath : String) : Option HostFile :=
  executeMapFile (hp.mappedFileBase64 m.key) hp.newPerm (hp.file (hp.mappedPath relPath))

/-! ## What would change -/

/-- The rewrite would change the content or the permission bits of its target. -/
def RewriteChanges (r : Rewrite) : Prop :=
  (hp.afterRewrite r).map (fun f => (f.content, f.perm)) ≠
    (hp.file (hp.targetPath r)).map fun f => (f.content, f.perm)

/-- The target of the rewrite is there and cannot be compared. -/
def RewriteHidden (r : Rewrite) : Prop :=
  ∃ f, hp.file (hp.targetPath r) = some f ∧ ¬ (f.statable = true ∧ f.readable = true)

/-- The `POSTCONF` would change the effective value of its parameter, up to white
space. -/
def PostconfChanges (p : Directive) : Prop :=
  ((hp.afterPostconf p).effective p.key).map Strings.fields ≠
    (hp.mta.effective p.key).map Strings.fields

/-- The `POSTCONFD` would remove a setting of `main.cf`. -/
def PostconfdChanges (p : Directive) : Prop :=
  (executePostconfd hp.mta p.key).explicit[p.key]? ≠ hp.mta.explicit[p.key]?

/-- The sync would change the content or the existence of the mapped file. -/
def MapfileChanges (m : Mapfile) : Prop :=
  ∃ relPath, mappedFiles m.key = some relPath ∧
    (hp.afterSync m relPath).map HostFile.content ≠
      (hp.file (hp.mappedPath relPath)).map HostFile.content

/-- The comparison sees of the mapped file and of its value what the sync sees: a
file that is there can be read, and a value that is set stands for some bytes. -/
def MapfileSeen (m : Mapfile) : Prop :=
  (∀ relPath f, mappedFiles m.key = some relPath → hp.file (hp.mappedPath relPath) = some f →
      f.statable = true ∧ f.readable = true) ∧
    (hp.mappedFileBase64 m.key = "" ∨ Base64.decode (hp.mappedFileBase64 m.key) ≠ some [])

end HostPlanner

/-! ## What the plan promises -/

/-- An action is listed, whatever its reasons. -/
def KeptIn {T : Type} (mapReasons : (List Reason → List Reason) → T → T) (list : List T)
    (it : T) : Prop :=
  ∃ kept ∈ list, mapReasons (fun _ => []) kept = mapReasons (fun _ => []) it

/-- The section owns an action of the plan other than an LDAP write. -/
def Plan.Owns (pl : Plan) (sn : String) : Prop :=
  (∃ m ∈ pl.mapfiles, sn ∈ m.sections) ∨ (∃ r ∈ pl.rewrites, sn ∈ r.sections) ∨
    (∃ p, pl.proxygen = some p ∧ sn ∈ p.sections) ∨ (∃ p ∈ pl.postconf, sn ∈ p.sections) ∨
    ∃ p ∈ pl.postconfd, sn ∈ p.sections

/-- Every action of the plan is in the candidate; a mapped file that is only kept in
sync there may become a regular one. -/
structure Plan.Within (pl cand : Plan) : Prop where
  heal : ∀ m ∈ pl.heal, KeptIn Mapfile.mapReasons cand.heal m
  mapfiles : ∀ m ∈ pl.mapfiles, KeptIn Mapfile.mapReasons (cand.heal ++ cand.mapfiles) m
  rewrites : ∀ r ∈ pl.rewrites, KeptIn Rewrite.mapReasons cand.rewrites r
  postconf : ∀ p ∈ pl.postconf, KeptIn Directive.mapReasons cand.postconf p
  postconfd : ∀ p ∈ pl.postconfd, KeptIn Directive.mapReasons cand.postconfd p
  ldap : ∀ p ∈ pl.ldap, KeptIn Directive.mapReasons cand.ldap p
  proxygen : ∀ p ∈ pl.proxygen, KeptIn Proxygen.mapReasons cand.proxygen.toList p
  restarts : ∀ r ∈ pl.restarts, KeptIn Restart.mapReasons cand.restarts r
  deferred : pl.deferredRestarts = []

/-- What `PlanHost` promises of the plan, with the candidate it compared. -/
structure PlanHostMeets (hp : HostPlanner) (cand pl : Plan) : Prop where
  within : pl.Within cand
  /-- A target that cannot be compared counts as different. -/
  rewrites : ∀ r ∈ cand.rewrites,
    KeptIn Rewrite.mapReasons pl.rewrites r ↔ hp.RewriteHidden r ∨ hp.RewriteChanges r
  /-- A value that cannot be resolved is reported. -/
  postconf : ∀ p ∈ cand.postconf,
    KeptIn Directive.mapReasons pl.postconf p ↔ hp.postconfValue p = none ∨ hp.PostconfChanges p
  postconfd : ∀ p ∈ cand.postconfd,
    KeptIn Directive.mapReasons pl.postconfd p ↔ hp.PostconfdChanges p
  mapfiles : ∀ m ∈ cand.heal ++ cand.mapfiles, m.isLocal = false → hp.MapfileSeen m →
    (KeptIn Mapfile.mapReasons (pl.heal ++ pl.mapfiles) m ↔ hp.MapfileChanges m)
  restarts : ∀ r ∈ pl.restarts, ∃ sn ∈ r.sections, pl.Owns sn

end Configd
