import Configd.Snapshot

/-!
# Loading the miscellaneous configuration

`ConfigManager.LoadMiscConfig` (`internal/configmgr/manager_load_misc.go`) runs three
commands, each in its own goroutine, and publishes what they returned in one map.  A
command that is not registered, fails, panics or returns nothing has no entry in that map,
and `stagedLoad.apply` puts the map in place of the previous one as a whole.

So the previous value of a command that fails is kept only if there is none
(`misc_kept_iff`): keeping is decided per loader, and a loader whose commands fail still
succeeds.
-/

namespace Configd

open Lib

/-- The commands of `LoadMiscConfig`. -/
inductive MiscCommand
  | garpu
  | garpb
  | gamau
  deriving DecidableEq

def miscCommands : List MiscCommand := [.garpu, .garpb, .gamau]

/-- `Command.Name`: the key a command is published under. -/
def MiscCommand.name : MiscCommand → String
  | .garpu => "getAllReverseProxyURLs"
  | .garpb => "getAllReverseProxyBackends"
  | .gamau => "getAllMtaAuthURLs"

theorem MiscCommand.name_injective {cmd cmd' : MiscCommand} (h : cmd.name = cmd'.name) :
    cmd = cmd' := by
  cases cmd <;> cases cmd' <;> first
    | rfl
    | exact absurd h (by decide)

/-- How `Command.Execute` ends. -/
inductive Execution
  | panics
  | returns (rc : Int) (output : String)

/-- What a load meets: the registered commands, how they run, and the entries of the
cache, if there is one. -/
structure MiscEnv where
  registered : MiscCommand → Bool
  execute : MiscCommand → Execution
  cache : Option (MiscCommand → Option String)

structure MiscCmdResult where
  name : String := ""
  output : String := ""
  failed : Bool := false

/-- `fetchMiscCommand`.  A command that fails is an empty output, and no error; `none` is
a panic. -/
def fetchMiscCommand (env : MiscEnv) (cmd : MiscCommand) : Option String :=
  if env.registered cmd then
    match env.execute cmd with
    | .panics => none
    | .returns rc output => if rc = 0 then some output else some ""
  else some ""

def resolveMiscOutput (env : MiscEnv) (cmd : MiscCommand) : Option String :=
  match env.cache with
  | none => fetchMiscCommand env cmd
  | some entries =>
    match entries cmd with
    | some output => some output
    | none => fetchMiscCommand env cmd

/-- `executeMiscCommand`, with the panic that `runRecovered` makes an error. -/
def executeMiscCommand (env : MiscEnv) (cmd : MiscCommand) : MiscCmdResult :=
  match resolveMiscOutput env cmd with
  | none => { failed := true }
  | some output =>
    if output = "" then {}
    else if env.registered cmd then { name := cmd.name, output := output }
    else { failed := true }

/-- The entry a result has in the published map. -/
def MiscCmdResult.entry (result : MiscCmdResult) : Option (String × String) :=
  if result.failed = false ∧ result.output ≠ "" then some (result.name, result.output) else none

/-- `LoadMiscConfig`: the map it publishes, unless it was cancelled.  The results come in
the order in which the commands end. -/
def loadMiscConfig (cancelled : Bool) (env : MiscEnv) (order : List MiscCommand) :
    Option (StrMap String) :=
  let published := (order.map (executeMiscCommand env)).foldl
    (fun published result => published.insertOf result.entry) ∅
  if cancelled then none else some published

/-- The output of a command that did not fail. -/
def Execution.output : Execution → Option String
  | .panics => none
  | .returns rc output => if rc = 0 then some output else none

/-- The data of a registered command, if the cache has any or it did not fail and returned any. -/
def MiscEnv.data (env : MiscEnv) (cmd : MiscCommand) : Option String :=
  if env.registered cmd then
    ((env.cache.bind fun entries => entries cmd).or (env.execute cmd).output).filter (· ≠ "")
  else none

/-- A command that fails is resolved like one that returned nothing. -/
theorem getD_resolveMiscOutput {env : MiscEnv} {cmd : MiscCommand} (hreg : env.registered cmd) :
    (resolveMiscOutput env cmd).getD "" =
      ((env.cache.bind fun entries => entries cmd).or (env.execute cmd).output).getD "" := by
  have hfetch : (fetchMiscCommand env cmd).getD "" = (env.execute cmd).output.getD "" := by
    unfold fetchMiscCommand Execution.output
    rw [if_pos hreg]
    cases env.execute cmd with
    | panics => rfl
    | returns rc output => by_cases hrc : rc = 0 <;> simp [hrc]
  unfold resolveMiscOutput
  cases env.cache with
  | none => exact hfetch
  | some entries =>
    cases hentry : entries cmd with
    | none => simpa [hentry] using hfetch
    | some output => simp [hentry]

theorem entry_executeMiscCommand (env : MiscEnv) (cmd : MiscCommand) :
    (executeMiscCommand env cmd).entry = (env.data cmd).map fun output => (cmd.name, output) := by
  unfold executeMiscCommand MiscEnv.data
  by_cases hreg : env.registered cmd
  · have hresolve := getD_resolveMiscOutput hreg
    generalize resolveMiscOutput env cmd = resolved at hresolve ⊢
    generalize (env.cache.bind fun entries => entries cmd).or (env.execute cmd).output = found
      at hresolve ⊢
    obtain hempty | ⟨hne, rfl⟩ : (resolved.getD "" = "" ∧ found.getD "" = "") ∨
        (resolved.getD "" ≠ "" ∧ found = some (resolved.getD "")) := by
      cases found <;> grind
    · cases resolved <;> cases found <;> simp_all [MiscCmdResult.entry]
    · cases resolved with
      | none => exact absurd rfl hne
      | some output =>
        rw [Option.getD_some] at hne
        simp [hreg, hne, MiscCmdResult.entry]
  · cases resolveMiscOutput env cmd with
    | none => simp [hreg, MiscCmdResult.entry]
    | some output => by_cases houtput : output = "" <;> simp [hreg, houtput, MiscCmdResult.entry]

/-- **The published map** holds the data of each command under its name. -/
theorem getElem?_loadMiscConfig {env : MiscEnv} {order : List MiscCommand}
    (horder : order.Perm miscCommands) {published : StrMap String}
    (h : loadMiscConfig false env order = some published) (cmd : MiscCommand) :
    published[cmd.name]? = env.data cmd := by
  obtain rfl := Option.some.inj h
  have hmem : cmd ∈ order := horder.mem_iff.mpr (by cases cmd <;> decide)
  rw [List.foldl_map, OrdMap.getElem?_foldl_insertOf
    (fun cmd => (executeMiscCommand env cmd).entry)]
  -- The names are distinct, so the entry under the name is that of the command.
  have hentry : ∀ cmd' output, (executeMiscCommand env cmd').entry = some (cmd.name, output) →
      env.data cmd = some output := by
    intro cmd' output hentry
    rw [entry_executeMiscCommand] at hentry
    obtain ⟨output', hdata, heq⟩ := Option.map_eq_some_iff.mp hentry
    obtain ⟨hname, rfl⟩ := Prod.mk.inj heq
    rw [← MiscCommand.name_injective hname]
    exact hdata
  cases hlast : OrdMap.lastOf (fun cmd => (executeMiscCommand env cmd).entry) order cmd.name with
  | some output =>
    obtain ⟨cmd', -, hentry'⟩ := OrdMap.lastOf_eq_some hlast
    rw [hentry cmd' output hentry']
    rfl
  | none =>
    have hnone := OrdMap.lastOf_eq_none hlast cmd hmem
    cases hdata : env.data cmd with
    | none => simp
    | some output =>
      refine absurd ?_ (hnone output)
      rw [entry_executeMiscCommand, hdata]
      rfl

/-- **A failed command changes no variable**: what it published before is kept, and the
commands that returned data publish these. -/
structure MiscKept (env : MiscEnv) (old new : Snapshot) : Prop where
  kept : ∀ cmd value, env.data cmd = none → old.misc cmd.name = some value →
    new.misc cmd.name = some value
  updated : ∀ cmd output, env.data cmd = some output → new.misc cmd.name = some output
  unchanged : ∀ cmd value, env.data cmd = none → old.misc cmd.name = some value →
    new.server cmd.name = old.server cmd.name → new.var cmd.name = old.var cmd.name

/-- **Keeping the previous values.**  For every load in which the commands end in any order
and `LoadMiscConfig` ends normally, whatever the other loaders delivered: the values of the
failed commands are kept exactly if there are none. -/
theorem misc_kept_iff {env : MiscEnv} {order : List MiscCommand}
    (horder : order.Perm miscCommands) {load : StagedLoad} {published : StrMap String}
    (hmisc : loadMiscConfig false env order = some published)
    (hload : load.miscPart = some published) (old : Snapshot) :
    MiscKept env old (load.apply old) ↔
      ∀ cmd, env.data cmd = none → old.misc cmd.name = none := by
  have hnew : ∀ cmd : MiscCommand, (load.apply old).misc cmd.name = env.data cmd := by
    intro cmd
    rw [← getElem?_loadMiscConfig horder hmisc cmd]
    exact StagedLoad.apply_misc hload old cmd.name
  constructor
  · intro hkept cmd hdata
    cases hold : old.misc cmd.name with
    | none => rfl
    | some value =>
      have hsame := hkept.kept cmd value hdata hold
      rw [hnew, hdata] at hsame
      cases hsame
  · intro hnone
    refine ⟨?_, ?_, ?_⟩
    · intro cmd value hdata hold
      rw [hnone cmd hdata] at hold
      cases hold
    · intro cmd output hdata
      rw [hnew, hdata]
    · intro cmd value hdata hold
      rw [hnone cmd hdata] at hold
      cases hold

/-- A load in which `garpb` fails and the other commands return data. -/
def backendsFail : MiscEnv where
  registered := fun _ => true
  execute := fun cmd =>
    match cmd with
    | .garpu => .returns 0 "mail.example.com:7072"
    | .garpb => .returns 1 ""
    | .gamau => .returns 0 "https://mail.example.com:7073"
  cache := none

/-- The load stages what the commands published. -/
def backendsLoad : StagedLoad where
  miscPart := loadMiscConfig false backendsFail miscCommands

theorem misc_kept_first_load :
    backendsFail.data .garpb = none ∧ MiscKept backendsFail {} (backendsLoad.apply {}) := by
  refine ⟨by decide, ?_⟩
  refine (misc_kept_iff (List.Perm.refl _) rfl rfl {}).mpr ?_
  intro cmd _
  simp [Snapshot.misc]

def backendsKnown : Snapshot where
  miscMap := Std.ExtTreeMap.ofList
    [("getAllReverseProxyBackends", "    server mail.example.com:8080;")]
    compare

theorem misc_not_kept :
    backendsFail.data .garpb = none ∧
      backendsKnown.var "getAllReverseProxyBackends" = some "    server mail.example.com:8080;" ∧
      (backendsLoad.apply backendsKnown).var "getAllReverseProxyBackends" = none ∧
      ¬MiscKept backendsFail backendsKnown (backendsLoad.apply backendsKnown) := by
  refine ⟨by decide, by decide +kernel, by decide +kernel, ?_⟩
  intro hkept
  have hold : backendsKnown.misc "getAllReverseProxyBackends" =
      some "    server mail.example.com:8080;" := by decide +kernel
  have hnew : (backendsLoad.apply backendsKnown).misc "getAllReverseProxyBackends" = none := by
    decide +kernel
  have hsame := hkept.kept .garpb _ (by decide) hold
  change (backendsLoad.apply backendsKnown).misc "getAllReverseProxyBackends" = _ at hsame
  rw [hnew] at hsame
  cases hsame

end Configd
