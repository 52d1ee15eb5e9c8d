import Configd.Config
import Configd.Lib.Scoped
import Configd.Proxy.Tmpl
import Configd.Proxy.Upstream

/-!
# Templates rendered once per domain

The directive `!{explode domain(…)}` of a proxy template (`internal/proxy/template_explode.go`).
For each domain that meets its requirements, the variables of the domain are set in the one map of
the generator, the lines are rendered, and the variables are put back from the shadows they were
saved under.

The loop keeps `Agrees`: between two domains the map is the original one, except for `vhn` and
`vip`.  `explode_writes_blocks` follows: the block of a domain depends on that domain and on the
original variables alone, for lines that do not read the shadows (`shadow_shows`).
-/

namespace Configd
namespace Proxy

open Lib Lib.Strings

/-! ## Variables -/

inductive ValueType where
  | integer
  | long
  | string
  | boolean
  | enabler
  | time
  | timeInSec
  | custom
  deriving DecidableEq

/-- The dynamic types a value is switched on; any other value is its `%v` text. -/
inductive Value where
  | nil
  | bool (b : Bool)
  | string (s : String)
  | int (n : Int)
  | int64 (n : Int)
  | strings (parts : List String)
  | other (text : String)
  deriving DecidableEq

structure Variable where
  keyword : String
  valueType : ValueType
  value : Value
  customFormatter : Option (Value → String × Option String) := none
  configText : Option String := none

/-- The variables of the generator: pointers, which may be nil. -/
abbrev Variables := StrMap (Option Variable)

/-- The text of the verb `%v`. -/
def Value.verb : Value → String
  | .nil => "<nil>"
  | .bool b => if b then "true" else "false"
  | .string s => s
  | .int n | .int64 n => toString n
  | .strings parts => "[" ++ join " " parts ++ "]"
  | .other text => text

/-- Whether an enabler is on.  The comparison of an `int64` with the constant 0, which is an
`int`, is one of interface values of different types: they differ. -/
def Value.isOn : Value → Bool
  | .bool b => b
  | .string s => s ≠ ""
  | .int n => n ≠ 0
  | .int64 _ => true
  | _ => false

def formatEnabler (value : Value) : String :=
  if value.isOn then "" else "#"

def formatValue : Value → String
  | .nil => ""
  | .bool b => if b then "on" else "off"
  | .strings parts => join " " parts
  | value => value.verb

def formatTimeValue : Value → String
  | .nil => ""
  | .int n | .int64 n => toString n ++ "ms"
  | value => value.verb

def formatTimeInSecValue : Value → String
  | .nil => ""
  | .string s =>
    match atoi s with
    | some ms => toString (ms.tdiv 1000)
    | none => s
  | .int n | .int64 n => toString (n.tdiv 1000)
  | value => value.verb

/-- `ExpandVariable` for a variable that is there. -/
def Variable.expand (v : Variable) : String × Option String :=
  match v.configText with
  | some text => (text, none)
  | none =>
    match v.customFormatter with
    | some formatter => formatter v.value
    | none =>
      match v.valueType with
      | .enabler => (formatEnabler v.value, none)
      | .time => (formatTimeValue v.value, none)
      | .timeInSec => (formatTimeInSecValue v.value, none)
      | _ => (formatValue v.value, none)

/-- The answer of `varResolver.Enabler` for a variable. -/
def Variable.enabler (v : Variable) : Bool × Bool :=
  if v.valueType = .enabler then (v.value.isOn, true) else (false, false)

/-- `varResolver`; the answer for a nil variable is a nil dereference. -/
def varResolver (vars : Variables) : Tmpl.Resolver Option where
  enabler name :=
    match vars[name]? with
    | none => some (false, false)
    | some pointer => pointer.map Variable.enabler
  value name :=
    match vars[name]? with
    | none => some ("", false)
    | some pointer => pointer.map fun v => (v.expand.1, v.expand.2.isNone)

/-! ## Domains -/

/-- An address, as far as `virtualIPPrefix` looks at it: whether `To4` gives one, and its
text. -/
structure IP where
  is4 : Bool
  text : String

structure DomainInfo where
  name : String
  virtualHostname : String
  virtualIPAddress : String
  clientCertMode : String
  clientCertCA : String
  sslCertificate : String
  sslPrivateKey : String

/-- The processor: the configuration of the generator and its directory, the resolver of
hosts, and the writer with the error it meets when it writes a text after another one. -/
structure TemplateProcessor where
  generator : Generator
  confDir : String
  hostResolver : String → Option IP
  writeError : (written text : List Char) → Option String

def domainMeetsRequirements (domain : DomainInfo) (args : List String) : Bool :=
  args.all fun arg =>
    match arg with
    | "vhn" => domain.virtualHostname ≠ ""
    | "sso" => domain.clientCertMode ≠ "" && domain.clientCertMode ≠ "off"
    | _ => true

/-- The elements of a path that `filepath.Clean` keeps, the last one first. -/
def cleanElements (rooted : Bool) (kept : List String) : List String → List String
  | [] => kept
  | element :: later =>
    if element = "" ∨ element = "." then cleanElements rooted kept later
    else if element = ".." then
      match kept with
      | top :: below =>
        if top = ".." then cleanElements rooted (".." :: kept) later
        else cleanElements rooted below later
      | [] => cleanElements rooted (if rooted then [] else [".."]) later
    else cleanElements rooted (element :: kept) later

/-- `filepath.Clean`. -/
def cleanPath (path : String) : String :=
  let rooted := hasPrefix path "/"
  let cleaned := (if rooted then "/" else "") ++
    join "/" (cleanElements rooted [] (split path '/')).reverse
  if cleaned = "" then "." else cleaned

/-- `filepath.Join` of two elements. -/
def joinPath (dir file : String) : String :=
  match [dir, file].filter (· ≠ "") with
  | [] => ""
  | elements => cleanPath (join "/" elements)

namespace TemplateProcessor

variable (tp : TemplateProcessor)

def domainCertFilePath (domainName ext : String) : String :=
  joinPath (joinPath tp.confDir "domaincerts") (domainName ++ ext)

def virtualIPPrefix (domain : DomainInfo) : String :=
  let sni :=
    match tp.generator.getConfigValue "zimbraReverseProxySNIEnabled"
        [.sourceServer, .sourceGlobal] with
    | some v => isTruthy v
    | none => true
  let host :=
    if domain.virtualIPAddress = "" then domain.virtualHostname else domain.virtualIPAddress
  match tp.hostResolver host with
  | none => ""
  | some ip =>
    if !ip.is4 && sni then "[::]:"
    else if !ip.is4 then "[" ++ ip.text ++ "]:"
    else if sni then ""
    else ip.text ++ ":"

end TemplateProcessor

def clientCertVerifies (mode : String) : Bool :=
  mode = "on" || mode = "optional"

/-! ## The variables of a domain -/

def stringVar (keyword value : String) : Variable where
  keyword := keyword
  valueType := .string
  value := .string value

/-- `defaultVarString`: the string of a variable, empty when there is none. -/
def defaultVarString (v : Option Variable) : String :=
  match v with
  | some ⟨_, _, .string s, _, _⟩ => s
  | _ => ""

/-- The entry of a name, nil when there is none. -/
def lookUp (vars : Variables) (name : String) : Option Variable :=
  vars[name]?.getD none

/-- The name a variable is saved under. -/
def origName (key : String) : String :=
  "_orig_" ++ key

def domainScopedClientCertKeys : List String :=
  ["ssl.clientcertmode", "ssl.clientcertca", "web.sso.certauth.enabled"]

/-- The variables that are saved and restored. -/
def domainScopedKeys : List String :=
  ["ssl.crt", "ssl.key"] ++ domainScopedClientCertKeys

namespace TemplateProcessor

variable (tp : TemplateProcessor)

def domainSSLPathOrDefault (domainName pem ext : String) (defaultVar : Option Variable) : String :=
  if pem ≠ "" then tp.domainCertFilePath domainName ext else defaultVarString defaultVar

def setDomainClientCertVariables (domain : DomainInfo) (vars : Variables) : Variables :=
  let saved := domainScopedClientCertKeys.foldl (Scoped.save origName) vars
  let withMode :=
    if domain.clientCertMode ≠ "" then
      (saved.insert "ssl.clientcertmode"
        (some (stringVar "ssl.clientcertmode" domain.clientCertMode))).insert
          "web.sso.certauth.enabled"
          (some ⟨"web.sso.certauth.enabled", .enabler,
            .bool (clientCertVerifies domain.clientCertMode), none, none⟩)
    else
      saved.insert "ssl.clientcertmode" (some (stringVar "ssl.clientcertmode"
        (defaultVarString (lookUp saved "ssl.clientcertmode.default"))))
  if domain.clientCertCA ≠ "" then
    withMode.insert "ssl.clientcertca" (some (stringVar "ssl.clientcertca"
      (tp.domainCertFilePath domain.name ".client.ca.crt")))
  else
    withMode.insert "ssl.clientcertca" (some (stringVar "ssl.clientcertca"
      (defaultVarString (lookUp withMode "ssl.clientcertca.default"))))

def setDomainVariables (domain : DomainInfo) (vars : Variables) : Variables :=
  let named := (vars.insert "vhn" (some (stringVar "vhn" domain.virtualHostname))).insert
    "vip" (some (stringVar "vip" domain.virtualIPAddress))
  let saved := ["ssl.crt", "ssl.key"].foldl (Scoped.save origName) named
  let withCrt := saved.insert "ssl.crt" (some (stringVar "ssl.crt"
    (tp.domainSSLPathOrDefault domain.name domain.sslCertificate ".crt"
      (lookUp saved "ssl.crt.default"))))
  let withKey := withCrt.insert "ssl.key" (some (stringVar "ssl.key"
    (tp.domainSSLPathOrDefault domain.name domain.sslPrivateKey ".key"
      (lookUp withCrt "ssl.key.default"))))
  tp.setDomainClientCertVariables domain withKey

/-- The assignment to the value of the variable `vip`, a nil dereference when there is none. -/
def setVip (value : String) (vars : Variables) : Option Variables := do
  let v ← lookUp vars "vip"
  return vars.insert "vip" (some { v with value := .string value })

def clearDomainVariables (vars : Variables) : Variables :=
  domainScopedKeys.foldl (Scoped.restore origName) ((vars.erase "vhn").erase "vip")

/-! ## The loop over the domains -/

/-- The variables and what has been written. -/
structure Run where
  vars : Variables
  out : List Char

/-- `processTemplateLines`: the state it ends in with the error, if there is one.  No result
stands for a nil dereference. -/
def processTemplateLines (skipComments : Bool) :
    List (List Char) → Run → Option (Run × Option String)
  | [], run => some (run, none)
  | line :: lines, run =>
    if skipComments && Tmpl.isCommentLine line then
      processTemplateLines skipComments lines run
    else do
      let text ← Tmpl.renderLine (varResolver run.vars) line
      match tp.writeError run.out (text ++ ['\n']) with
      | some e => return (run, some ("error writing exploded output: " ++ e))
      | none =>
        processTemplateLines skipComments lines
          { run with out := run.out ++ (text ++ ['\n']) }

/-- One round of the loop of `processExplodeDomain`, for a domain that meets the
requirements. -/
def explodeDomain (templateLines : List (List Char)) (domain : DomainInfo) (run : Run) :
    Option (Run × Option String) := do
  let vars ← setVip (tp.virtualIPPrefix domain) (tp.setDomainVariables domain run.vars)
  let (run, err) ← tp.processTemplateLines false templateLines { run with vars }
  match err with
  | some e => return (run, some e)
  | none =>
    match tp.writeError run.out ['\n'] with
    | some e => return (run, some ("error writing separator: " ++ e))
    | none => return (⟨clearDomainVariables run.vars, run.out ++ ['\n']⟩, none)

/-- The loop of `processExplodeDomain`. -/
def explodeDomains (args : List String) (templateLines : List (List Char)) :
    List DomainInfo → Run → Option (Run × Option String)
  | [], run => some (run, none)
  | domain :: domains, run =>
    if domainMeetsRequirements domain args then do
      let (run, err) ← tp.explodeDomain templateLines domain run
      match err with
      | some e => return (run, some e)
      | none => explodeDomains args templateLines domains run
    else explodeDomains args templateLines domains run

/-- `processExplodeDomain`, for the domains that `getDomains` gives. -/
def processExplodeDomain (argsStr : String) (domains : List DomainInfo)
    (templateLines : List (List Char)) (run : Run) : Option (Run × Option String) :=
  match Tmpl.domainArgs argsStr with
  | .error e => some (run, some e)
  | .ok args =>
    if domains = [] then some (run, none) else tp.explodeDomains args templateLines domains run

end TemplateProcessor

/-! ## The block of a domain -/

/-- The answers of a map without nil variables. -/
def answers (vars : StrMap Variable) : Tmpl.Resolver Id where
  enabler name := (vars[name]?.map Variable.enabler).getD (false, false)
  value name := (vars[name]?.map fun v => (v.expand.1, v.expand.2.isNone)).getD ("", false)

namespace TemplateProcessor

variable (tp : TemplateProcessor)

/-- The variables of a domain, from the domain and the defaults alone. -/
def domainVariables (vars : StrMap Variable) (domain : DomainInfo) : List (String × Variable) :=
  [("vhn", stringVar "vhn" domain.virtualHostname),
    ("vip", stringVar "vip" (tp.virtualIPPrefix domain)),
    ("ssl.crt", stringVar "ssl.crt"
      (tp.domainSSLPathOrDefault domain.name domain.sslCertificate ".crt"
        vars["ssl.crt.default"]?)),
    ("ssl.key", stringVar "ssl.key"
      (tp.domainSSLPathOrDefault domain.name domain.sslPrivateKey ".key"
        vars["ssl.key.default"]?)),
    ("ssl.clientcertmode", stringVar "ssl.clientcertmode"
      (if domain.clientCertMode ≠ "" then domain.clientCertMode
        else defaultVarString vars["ssl.clientcertmode.default"]?)),
    ("ssl.clientcertca", stringVar "ssl.clientcertca"
      (tp.domainSSLPathOrDefault domain.name domain.clientCertCA ".client.ca.crt"
        vars["ssl.clientcertca.default"]?))] ++
  if domain.clientCertMode ≠ "" then
    [("web.sso.certauth.enabled", ⟨"web.sso.certauth.enabled", .enabler,
      .bool (clientCertVerifies domain.clientCertMode), none, none⟩)]
  else []

def override (vars : StrMap Variable) (domain : DomainInfo) : StrMap Variable :=
  (tp.domainVariables vars domain).foldl (fun vars entry => vars.insert entry.1 entry.2) vars

/-- The block of a domain: the lines rendered with the overridden variables, and a blank line. -/
def block (vars : StrMap Variable) (templateLines : List (List Char)) (domain : DomainInfo) :
    List Char :=
  (templateLines.flatMap fun line =>
    Id.run (Tmpl.renderLine (answers (tp.override vars domain)) line) ++ ['\n']) ++ ['\n']

end TemplateProcessor

/-! ## Setting and clearing -/

/-- A name that is none of those a domain sets or saves. -/
structure Untouched (name : String) : Prop where
  vhn : "vhn" ≠ name
  vip : "vip" ≠ name
  keys : ∀ key ∈ domainScopedKeys, key ≠ name
  origs : ∀ key ∈ domainScopedKeys, origName key ≠ name

section Variables

variable (tp : TemplateProcessor) (domain : DomainInfo) (vars : Variables)

variable {name : String}

theorem getElem?_setDomainClientCertVariables (hname : Untouched name) :
    (tp.setDomainClientCertVariables domain vars)[name]? = vars[name]? := by
  have hmode := hname.keys "ssl.clientcertmode" (by decide)
  have hca := hname.keys "ssl.clientcertca" (by decide)
  have hsso := hname.keys "web.sso.certauth.enabled" (by decide)
  have horigMode := hname.origs "ssl.clientcertmode" (by decide)
  have horigCa := hname.origs "ssl.clientcertca" (by decide)
  have horigSso := hname.origs "web.sso.certauth.enabled" (by decide)
  simp only [TemplateProcessor.setDomainClientCertVariables, domainScopedClientCertKeys,
    List.foldl_cons, List.foldl_nil]
  split <;> split <;>
    simp only [OrdMap.getElem?_insert_iff, Scoped.getElem?_save, hmode, hca, hsso, horigMode,
      horigCa, horigSso, if_false]

theorem getElem?_setDomainVariables (hname : Untouched name) :
    (tp.setDomainVariables domain vars)[name]? = vars[name]? := by
  have hcrt := hname.keys "ssl.crt" (by decide)
  have hkey := hname.keys "ssl.key" (by decide)
  have horigCrt := hname.origs "ssl.crt" (by decide)
  have horigKey := hname.origs "ssl.key" (by decide)
  simp only [TemplateProcessor.setDomainVariables]
  rw [getElem?_setDomainClientCertVariables tp domain _ hname]
  simp only [List.foldl_cons, List.foldl_nil, OrdMap.getElem?_insert_iff, Scoped.getElem?_save,
    hname.vhn, hname.vip, hcrt, hkey, horigCrt, horigKey, if_false]

theorem getElem?_setDomainVariables_orig {key : String} (hkey : key ∈ domainScopedKeys) :
    (tp.setDomainVariables domain vars)[origName key]? = some (lookUp vars key) := by
  simp only [domainScopedKeys, domainScopedClientCertKeys, List.cons_append, List.nil_append,
    List.mem_cons, List.not_mem_nil, or_false] at hkey
  simp only [TemplateProcessor.setDomainVariables, TemplateProcessor.setDomainClientCertVariables,
    domainScopedClientCertKeys, List.foldl_cons, List.foldl_nil, lookUp]
  rcases hkey with rfl | rfl | rfl | rfl | rfl <;> split <;> split <;>
    simp [OrdMap.getElem?_insert_iff, Scoped.getElem?_save, origName]

/-- The map the template is rendered with. -/
def domainMap : Variables :=
  (tp.setDomainVariables domain vars).insert "vip"
    (some (stringVar "vip" (tp.virtualIPPrefix domain)))

theorem setVip_setDomainVariables :
    TemplateProcessor.setVip (tp.virtualIPPrefix domain) (tp.setDomainVariables domain vars) =
      some (domainMap tp domain vars) := by
  have hvip : lookUp (tp.setDomainVariables domain vars) "vip" =
      some (stringVar "vip" domain.virtualIPAddress) := by
    simp only [lookUp, TemplateProcessor.setDomainVariables,
      TemplateProcessor.setDomainClientCertVariables, domainScopedClientCertKeys, List.foldl_cons,
      List.foldl_nil]
    split <;> split <;> simp [OrdMap.getElem?_insert_iff, Scoped.getElem?_save, origName]
  simp only [TemplateProcessor.setVip, hvip]
  rfl

end Variables

/-- Pointers to the variables of a map. -/
def pointers (vars : StrMap Variable) : Variables :=
  vars.map fun _ v => some v

@[simp] theorem getElem?_pointers (vars : StrMap Variable) (name : String) :
    (pointers vars)[name]? = vars[name]?.map some := by
  simp [pointers, Std.ExtTreeMap.getElem?_map]

/-- The map is that of the original variables, except perhaps for the names `vhn` and `vip`. -/
def Agrees (vars : StrMap Variable) (map : Variables) : Prop :=
  ∀ name, name ≠ "vhn" → name ≠ "vip" → map[name]? = vars[name]?.map some

theorem lookUp_of_agrees {vars : StrMap Variable} {map : Variables} (h : Agrees vars map)
    (name : String) (hvhn : name ≠ "vhn") (hvip : name ≠ "vip") :
    map[name]?.getD none = vars[name]? := by
  rw [h name hvhn hvip]
  cases vars[name]? <;> rfl

theorem untouched_or (hname : ∀ key ∈ domainScopedKeys, origName key ≠ name) :
    Untouched name ∨ name ∈ "vhn" :: "vip" :: domainScopedKeys := by
  by_cases hmem : name ∈ "vhn" :: "vip" :: domainScopedKeys
  · exact .inr hmem
  · simp only [List.mem_cons, not_or] at hmem
    obtain ⟨hvhn, hvip, hkeys⟩ := hmem
    exact .inl ⟨Ne.symm hvhn, Ne.symm hvip, fun key hkey heq => hkeys (heq ▸ hkey), hname⟩

theorem getElem?_override (tp : TemplateProcessor) (vars : StrMap Variable) (domain : DomainInfo)
    (hname : Untouched name) :
    (tp.override vars domain)[name]? = vars[name]? := by
  have hcrt := hname.keys "ssl.crt" (by decide)
  have hkey := hname.keys "ssl.key" (by decide)
  have hmode := hname.keys "ssl.clientcertmode" (by decide)
  have hca := hname.keys "ssl.clientcertca" (by decide)
  have hsso := hname.keys "web.sso.certauth.enabled" (by decide)
  simp only [TemplateProcessor.override, TemplateProcessor.domainVariables]
  split <;>
    simp only [List.cons_append, List.nil_append, List.foldl_cons, List.foldl_nil,
      OrdMap.getElem?_insert_iff, hname.vhn, hname.vip, hcrt, hkey, hmode, hca, hsso, if_false]

theorem getElem?_domainMap (tp : TemplateProcessor) (domain : DomainInfo) {vars : StrMap Variable}
    {map : Variables} (hmap : Agrees vars map)
    (hname : ∀ key ∈ domainScopedKeys, origName key ≠ name) :
    (domainMap tp domain map)[name]? = (tp.override vars domain)[name]?.map some := by
  rcases untouched_or hname with huntouched | hmem
  · rw [domainMap, OrdMap.getElem?_insert_iff, if_neg huntouched.vip,
      getElem?_setDomainVariables tp domain map huntouched,
      getElem?_override tp vars domain huntouched,
      hmap name (Ne.symm huntouched.vhn) (Ne.symm huntouched.vip)]
  · have hcrt := lookUp_of_agrees hmap "ssl.crt.default" (by decide) (by decide)
    have hkey := lookUp_of_agrees hmap "ssl.key.default" (by decide) (by decide)
    have hmode := lookUp_of_agrees hmap "ssl.clientcertmode.default" (by decide) (by decide)
    have hca := lookUp_of_agrees hmap "ssl.clientcertca.default" (by decide) (by decide)
    have hsso := hmap "web.sso.certauth.enabled" (by decide) (by decide)
    simp only [domainMap, TemplateProcessor.setDomainVariables,
      TemplateProcessor.setDomainClientCertVariables, domainScopedClientCertKeys,
      TemplateProcessor.override, TemplateProcessor.domainVariables, List.foldl_cons,
      List.foldl_nil, List.foldl_append, lookUp, TemplateProcessor.domainSSLPathOrDefault]
    simp only [domainScopedKeys, domainScopedClientCertKeys, List.cons_append, List.nil_append,
      List.mem_cons, List.not_mem_nil, or_false] at hmem
    by_cases hclient : domain.clientCertMode = "" <;>
      by_cases hclientCA : domain.clientCertCA = "" <;>
      rcases hmem with rfl | rfl | rfl | rfl | rfl | rfl | rfl <;>
      simp only [OrdMap.getElem?_insert_iff, Scoped.getElem?_save, origName, hclient, hclientCA,
        hcrt, hkey, hmode, hca, hsso, String.reduceAppend, String.reduceEq, if_true, if_false,
        ne_eq, not_true, not_false_eq_true, Option.map_some, List.foldl_cons, List.foldl_nil]

/-! ## One domain -/

/-- The beginning of the names the originals are saved under. -/
def origVarPrefix : List Char := "_orig_".toList

theorem origVarPrefix_origName (key : String) : origVarPrefix <+: (origName key).toList := by
  rw [origName, String.toList_append]
  exact List.prefix_append _ _

theorem origName_injective : Function.Injective origName := by
  intro key other h
  have hchars := congrArg String.toList h
  simp only [origName, String.toList_append] at hchars
  exact String.toList_injective (List.append_cancel_left hchars)

theorem origName_ne_domainScoped :
    ∀ key ∈ domainScopedKeys, ∀ other ∈ "vhn" :: "vip" :: domainScopedKeys,
      origName key ≠ other := by
  decide

theorem keeps_domainMap (tp : TemplateProcessor) (domain : DomainInfo) (map : Variables) :
    Scoped.Keeps origName domainScopedKeys ((map.erase "vhn").erase "vip")
      (((domainMap tp domain map).erase "vhn").erase "vip") := by
  constructor
  · intro key hkey
    have hother := origName_ne_domainScoped key hkey
    have hvhn : "vhn" ≠ origName key := Ne.symm (hother "vhn" (by simp))
    have hvip : "vip" ≠ origName key := Ne.symm (hother "vip" (by simp))
    have hkeyvhn : "vhn" ≠ key := by
      rintro rfl
      exact absurd hkey (by decide)
    have hkeyvip : "vip" ≠ key := by
      rintro rfl
      exact absurd hkey (by decide)
    simp only [OrdMap.getElem?_erase_iff, hvhn, hvip, hkeyvhn, hkeyvip, if_false, domainMap,
      OrdMap.getElem?_insert_iff]
    rw [getElem?_setDomainVariables_orig tp domain map hkey, lookUp]
  · intro name hname horig
    simp only [OrdMap.getElem?_erase_iff]
    by_cases hvip : "vip" = name
    · rw [if_pos hvip, if_pos hvip]
    · rw [if_neg hvip, if_neg hvip]
      by_cases hvhn : "vhn" = name
      · rw [if_pos hvhn, if_pos hvhn]
      · have huntouched : Untouched name := ⟨hvhn, hvip, fun key hkey heq => hname (heq ▸ hkey),
          fun key hkey heq => horig (List.mem_map.mpr ⟨key, hkey, heq⟩)⟩
        rw [if_neg hvhn, if_neg hvhn, domainMap, OrdMap.getElem?_insert_iff, if_neg hvip,
          getElem?_setDomainVariables tp domain map huntouched]

section Domain

variable (tp : TemplateProcessor) (domain : DomainInfo) {vars : StrMap Variable} {map : Variables}
  (hmap : Agrees vars map)

include hmap

theorem agrees_erase : Agrees vars ((map.erase "vhn").erase "vip") := by
  intro name hvhn hvip
  rw [OrdMap.getElem?_erase_iff, if_neg (Ne.symm hvip), OrdMap.getElem?_erase_iff,
    if_neg (Ne.symm hvhn), hmap name hvhn hvip]

/-- **Clearing puts the variables back**: only `vhn` and `vip` are gone. -/
theorem clearDomainVariables_domainMap
    (hvars : ∀ name ∈ vars, ¬origVarPrefix <+: name.toList) :
    TemplateProcessor.clearDomainVariables (domainMap tp domain map) =
      (map.erase "vhn").erase "vip" := by
  have hagrees := agrees_erase hmap
  refine Scoped.foldl_restore (keeps_domainMap tp domain map) (by decide) origName_injective
    (fun key hkey other hother => origName_ne_domainScoped key hkey other
      (List.mem_cons_of_mem _ (List.mem_cons_of_mem _ hother))) ?_ ?_
  · intro key hkey
    have hne : key ≠ "vhn" ∧ key ≠ "vip" := by
      constructor <;> rintro rfl <;> exact absurd hkey (by decide)
    rw [hagrees key hne.1 hne.2]
    cases vars[key]? <;> simp
  · intro key hkey
    have hother := origName_ne_domainScoped key hkey
    rw [hagrees _ (hother "vhn" (by simp)) (hother "vip" (by simp)), Option.map_eq_none_iff,
      OrdMap.getElem?_eq_none_iff]
    exact fun hmem => hvars _ hmem (origVarPrefix_origName key)

theorem varResolver_domainMap (hname : ¬origVarPrefix <+: name.toList) :
    (varResolver (domainMap tp domain map)).enabler name =
        some ((answers (tp.override vars domain)).enabler name) ∧
      (varResolver (domainMap tp domain map)).value name =
        some ((answers (tp.override vars domain)).value name) := by
  have hshadow : ∀ key ∈ domainScopedKeys, origName key ≠ name := fun key _ heq =>
    hname (heq ▸ origVarPrefix_origName key)
  have hlookup := getElem?_domainMap tp domain hmap hshadow
  simp only [varResolver, answers, hlookup]
  cases (tp.override vars domain)[name]? with
  | none => exact ⟨rfl, rfl⟩
  | some v => exact ⟨rfl, rfl⟩

theorem processTemplateLines_domainMap {lines : List (List Char)}
    (hlines : ∀ line ∈ lines, Tmpl.Avoids origVarPrefix line) {out : List Char}
    {run : TemplateProcessor.Run}
    (h : tp.processTemplateLines false lines ⟨domainMap tp domain map, out⟩ = some (run, none)) :
    run = ⟨domainMap tp domain map, out ++ lines.flatMap fun line =>
      Id.run (Tmpl.renderLine (answers (tp.override vars domain)) line) ++ ['\n']⟩ := by
  induction lines generalizing out with
  | nil =>
    obtain rfl : _ = run := (Prod.mk.inj (Option.some.inj h)).1
    simp
  | cons line lines ih =>
    have hline := Tmpl.renderLine_eq_some
      (fun name hname => varResolver_domainMap tp domain hmap hname)
      (hlines line List.mem_cons_self)
    simp only [TemplateProcessor.processTemplateLines, Bool.false_and, hline] at h
    rw [if_neg Bool.false_ne_true] at h
    simp only [Option.bind_eq_bind, Option.bind_some] at h
    split at h
    · cases (Prod.mk.inj (Option.some.inj h)).2
    · rw [ih (fun line hline => hlines line (List.mem_cons_of_mem _ hline)) h,
        List.flatMap_cons]
      simp only [List.append_assoc, Id.run]

/-- **One round** writes the block of the domain and leaves the other variables as they were. -/
theorem explodeDomain_ok (hvars : ∀ name ∈ vars, ¬origVarPrefix <+: name.toList)
    {lines : List (List Char)} (hlines : ∀ line ∈ lines, Tmpl.Avoids origVarPrefix line)
    {out : List Char} {run : TemplateProcessor.Run}
    (h : tp.explodeDomain lines domain ⟨map, out⟩ = some (run, none)) :
    Agrees vars run.vars ∧ run.out = out ++ tp.block vars lines domain := by
  simp only [TemplateProcessor.explodeDomain, setVip_setDomainVariables, Option.bind_eq_bind,
    Option.bind_some] at h
  obtain ⟨⟨rendered, err⟩, hrendered, hrest⟩ := Option.bind_eq_some_iff.mp h
  cases err with
  | some e => cases (Prod.mk.inj (Option.some.inj hrest)).2
  | none =>
    obtain rfl := processTemplateLines_domainMap tp domain hmap hlines hrendered
    dsimp only at hrest
    split at hrest
    · cases (Prod.mk.inj (Option.some.inj hrest)).2
    · obtain rfl : _ = run := (Prod.mk.inj (Option.some.inj hrest)).1
      refine ⟨?_, ?_⟩
      · rw [clearDomainVariables_domainMap tp domain hmap hvars]
        exact agrees_erase hmap
      · simp [TemplateProcessor.block]

end Domain

/-! ## All domains -/

/-- **The loop** writes the blocks of the domains that meet the requirements, in their order. -/
theorem explodeDomains_ok (tp : TemplateProcessor) {vars : StrMap Variable}
    (hvars : ∀ name ∈ vars, ¬origVarPrefix <+: name.toList)
    {lines : List (List Char)} (hlines : ∀ line ∈ lines, Tmpl.Avoids origVarPrefix line)
    {args : List String} {domains : List DomainInfo} {start run : TemplateProcessor.Run}
    (hstart : Agrees vars start.vars)
    (h : tp.explodeDomains args lines domains start = some (run, none)) :
    Agrees vars run.vars ∧ run.out = start.out ++
      (domains.filter (domainMeetsRequirements · args)).flatMap (tp.block vars lines) := by
  induction domains generalizing start with
  | nil =>
    obtain rfl : start = run := (Prod.mk.inj (Option.some.inj h)).1
    exact ⟨hstart, by simp⟩
  | cons domain domains ih =>
    simp only [TemplateProcessor.explodeDomains] at h
    by_cases hmeets : domainMeetsRequirements domain args = true
    · rw [if_pos hmeets] at h
      obtain ⟨⟨next, err⟩, hnext, hrest⟩ := Option.bind_eq_some_iff.mp h
      cases err with
      | some e => cases (Prod.mk.inj (Option.some.inj hrest)).2
      | none =>
        obtain ⟨hagrees, hout⟩ := explodeDomain_ok tp domain hstart hvars hlines hnext
        obtain ⟨hend, hrun⟩ := ih hagrees hrest
        refine ⟨hend, ?_⟩
        rw [hrun, hout, List.filter_cons, if_pos hmeets, List.flatMap_cons, List.append_assoc]
    · rw [if_neg hmeets] at h
      rw [List.filter_cons, if_neg hmeets]
      exact ih hstart h

/-- A processor without configuration, whose hosts do not resolve and whose writer does not
fail. -/
def plainProcessor : TemplateProcessor where
  generator := ⟨none, none, none⟩
  confDir := "/opt/conf"
  hostResolver _ := none
  writeError _ _ := none

def mailDomain : DomainInfo where
  name := "a.org"
  virtualHostname := "mail.a.org"
  virtualIPAddress := ""
  clientCertMode := ""
  clientCertCA := ""
  sslCertificate := "PEM"
  sslPrivateKey := "PEM"

def hostVariables : StrMap Variable :=
  ((∅ : StrMap Variable).insert "ssl.crt" (stringVar "ssl.crt" "/a.crt")).insert
    "ssl.crt.default" (stringVar "ssl.crt.default" "/d.crt")

theorem hostVariables_plain : ∀ name ∈ hostVariables, ¬origVarPrefix <+: name.toList := by
  intro name hname
  simp only [hostVariables, Std.ExtTreeMap.mem_insert, compare_eq_iff_eq,
    Std.ExtTreeMap.not_mem_empty, or_false] at hname
  rcases hname with rfl | rfl <;> decide

/-- A domain, one without a host name, and one without a certificate. -/
def threeDomains : List DomainInfo :=
  [mailDomain, { mailDomain with virtualHostname := "" },
    { mailDomain with virtualHostname := "b", sslCertificate := "" }]

def hostLines : List (List Char) :=
  ["name $\x7bvhn\x7d;".toList, "crt $\x7bssl.crt\x7d;".toList]

/-- A line that reads the certificate of the host under the name it is saved under. -/
def shadowLines : List (List Char) :=
  ["crt $\x7b_orig_ssl.crt\x7d;".toList]

/-- **Each domain gets its own block.**  For lines that mention none of the names under which
the originals are saved, a successful run writes, for the domains that meet the requirements
and in their order, the lines rendered with the original variables overridden by those of the
domain; and afterwards every variable but `vhn` and `vip` is as it was. -/
theorem explode_writes_blocks (tp : TemplateProcessor) (vars : StrMap Variable)
    (hvars : ∀ name ∈ vars, ¬origVarPrefix <+: name.toList)
    (lines : List (List Char)) (hlines : ∀ line ∈ lines, Tmpl.Avoids origVarPrefix line)
    (argsStr : String) (domains : List DomainInfo) (out : List Char) (run : TemplateProcessor.Run)
    (h : tp.processExplodeDomain argsStr domains lines ⟨pointers vars, out⟩ = some (run, none)) :
    ∃ args, Tmpl.domainArgs argsStr = .ok args ∧
      run.out = out ++
        (domains.filter (domainMeetsRequirements · args)).flatMap (tp.block vars lines) ∧
      ∀ name, name ≠ "vhn" → name ≠ "vip" → run.vars[name]? = (pointers vars)[name]? := by
  simp only [TemplateProcessor.processExplodeDomain] at h
  split at h
  · cases (Prod.mk.inj (Option.some.inj h)).2
  · rename_i args hargs
    refine ⟨args, hargs, ?_⟩
    have hpointers : Agrees vars (pointers vars) := fun name _ _ => getElem?_pointers vars name
    split at h
    · rename_i hempty
      obtain rfl : _ = run := (Prod.mk.inj (Option.some.inj h)).1
      subst hempty
      exact ⟨by simp, fun name _ _ => rfl⟩
    · obtain ⟨hagrees, hout⟩ := explodeDomains_ok tp hvars hlines hpointers h
      refine ⟨hout, fun name hvhn hvip => ?_⟩
      rw [hagrees name hvhn hvip, getElem?_pointers]

/-- Of three domains, the one without a host name is left out and the one without a
certificate gets the default. -/
theorem explode_writes_blocks_three :
    ∃ run, plainProcessor.processExplodeDomain "vhn" threeDomains hostLines
        ⟨pointers hostVariables, []⟩ = some (run, none) ∧
      (∃ args, Tmpl.domainArgs "vhn" = .ok args ∧
        run.out = [] ++ (threeDomains.filter (domainMeetsRequirements · args)).flatMap
          (plainProcessor.block hostVariables hostLines) ∧
        ∀ name, name ≠ "vhn" → name ≠ "vip" →
          run.vars[name]? = (pointers hostVariables)[name]?) ∧
      run.out = "name mail.a.org;\ncrt /opt/conf/domaincerts/a.org.crt;\n\n".toList ++
        "name b;\ncrt /d.crt;\n\n".toList := by
  have hends : (plainProcessor.processExplodeDomain "vhn" threeDomains hostLines
      ⟨pointers hostVariables, []⟩).map (fun result => (result.1.out, result.2)) =
      some ("name mail.a.org;\ncrt /opt/conf/domaincerts/a.org.crt;\n\n".toList ++
        "name b;\ncrt /d.crt;\n\n".toList, none) := by
    decide +kernel
  obtain ⟨⟨run, err⟩, hrun, hresult⟩ := Option.map_eq_some_iff.mp hends
  obtain ⟨hout, rfl⟩ := Prod.mk.inj hresult
  have hlines : ∀ line ∈ hostLines, Tmpl.Avoids origVarPrefix line := by
    simp only [Tmpl.Avoids]
    decide +kernel
  exact ⟨run, hrun, explode_writes_blocks plainProcessor hostVariables hostVariables_plain
    hostLines hlines "vhn" threeDomains [] run hrun, hout⟩

/-- While a domain is rendered, the certificate of the host can be read under the name it is
saved under. -/
theorem shadow_shows :
    ∃ run, (∀ name ∈ hostVariables, ¬origVarPrefix <+: name.toList) ∧
      plainProcessor.processExplodeDomain "vhn" [mailDomain] shadowLines
        ⟨pointers hostVariables, []⟩ = some (run, none) ∧
      run.out = "crt /a.crt;\n\n".toList ∧
      plainProcessor.block hostVariables shadowLines mailDomain = "crt ;\n\n".toList := by
  have hends : (plainProcessor.processExplodeDomain "vhn" [mailDomain] shadowLines
      ⟨pointers hostVariables, []⟩).map (fun result => (result.1.out, result.2)) =
      some ("crt /a.crt;\n\n".toList, none) := by
    decide +kernel
  obtain ⟨⟨run, err⟩, hrun, hresult⟩ := Option.map_eq_some_iff.mp hends
  obtain ⟨hout, rfl⟩ := Prod.mk.inj hresult
  exact ⟨run, hostVariables_plain, hrun, hout, by decide +kernel⟩

end Proxy
end Configd
