import Configd.Lib.Fenced
import Configd.Lib.Fields
import Configd.Lib.Keyed
import Configd.Lib.Numbers
import Configd.Lib.OrdMap

/-!
# Upstream servers

The resolver of the `servers` variables of the proxy configuration
(`internal/proxy/upstream_spec.go`).  The server entries of the directory come as a map from their
`cn`; they are indexed by host, which is the `zimbraServiceHostname` or, when there is none, the
`cn`; then those that enable one of the services of the variable (or are listed by name) are
selected, under their `zimbraServiceHostname`, and become `server` lines, in the order of their
hosts.

The second step has no fallback: the block lists the servers it should if and only if none of them
is an entry without a `zimbraServiceHostname` (`lists_servers_iff`).
-/

namespace Configd
namespace Proxy

open Lib Lib.Strings

/-! ## Attributes and configuration -/

abbrev Attrs := StrMap String

/-- `attrs[name]`: empty for an attribute that is not there. -/
def attrValue (attrs : Attrs) (name : String) : String :=
  attrs[name]?.getD ""

inductive ConfigSource where
  | sourceGlobal
  | sourceServer
  | sourceLocal
  deriving DecidableEq

/-- The configuration of the generator; a source may not be loaded. -/
structure Generator where
  globalConfig : Option (StrMap String)
  serverConfig : Option (StrMap String)
  localConfig : Option (StrMap String)

namespace Generator

def source (g : Generator) : ConfigSource → StrMap String
  | .sourceGlobal => g.globalConfig.getD ∅
  | .sourceServer => g.serverConfig.getD ∅
  | .sourceLocal => g.localConfig.getD ∅

/-- `getConfigValue`: the first value that is not empty. -/
def getConfigValue (g : Generator) (key : String) (sources : List ConfigSource) : Option String :=
  sources.findSome? fun src => (g.source src)[key]?.filter (· ≠ "")

def serverAttrOrGlobal (g : Generator) (attrs : Attrs) (attr : String) : String :=
  if attrValue attrs attr ≠ "" then attrValue attrs attr
  else (g.source .sourceGlobal)[attr]?.getD ""

end Generator

def atoiOr (s : String) (default : Int) : Int :=
  (atoi (trimSpace s)).getD default

/-! ## Hosts -/

def maxHostnameLen : Nat := 253

/-- The characters of DNS names and of IP literals. -/
def isHostChar (c : Char) : Bool :=
  ('a' ≤ c && c ≤ 'z') || ('A' ≤ c && c ≤ 'Z') || ('0' ≤ c && c ≤ '9') ||
    c ∈ ['.', '-', '_', ':', '[', ']']

def validHostToken (s : String) : Bool :=
  s ≠ "" && s.utf8ByteSize ≤ maxHostnameLen && s.toList.all isHostChar

def serverHostname (attrs : Attrs) : String :=
  attrValue attrs "zimbraServiceHostname"

/-- The host of an entry: its `zimbraServiceHostname` or, when that is empty, its `cn`. -/
def entryHost (entry : String × Attrs) : String :=
  if serverHostname entry.2 = "" then entry.1 else serverHostname entry.2

/-- `indexServersByHost`, the entries coming in some order. -/
def indexServersByHost (servers : List (String × Attrs)) : StrMap Attrs :=
  servers.foldl
    (fun byHost entry =>
      if validHostToken (entryHost entry) then byHost.insert (entryHost entry) entry.2 else byHost)
    ∅

def serverEnablesAnyService (attrs : Attrs) (services : List String) : Bool :=
  (split (attrValue attrs "zimbraServiceEnabled") '\n').any fun value =>
    trimSpace value ∈ services

/-- `selectByServices`, the entries of the index coming in some order. -/
def selectByServices (byHost : List (String × Attrs)) (services : List String) : StrMap Attrs :=
  byHost.foldl
    (fun selected entry =>
      if serverEnablesAnyService entry.2 services then
        selected.insert (serverHostname entry.2) entry.2
      else selected)
    ∅

def selectByAttrList (byHost : List (String × Attrs)) (names : List String) : StrMap Attrs :=
  byHost.foldl
    (fun selected entry =>
      if serverHostname entry.2 ∈ names then selected.insert (serverHostname entry.2) entry.2
      else selected)
    ∅

def validUpstreamMailModes : List String := ["http", "https", "mixed", "both", "redirect"]

def isValidUpstream (attrs : Attrs) : Bool :=
  equalFold (trimSpace (attrValue attrs "zimbraReverseProxyLookupTarget")) "TRUE" &&
    toLower (trimSpace (attrValue attrs "zimbraMailMode")) ∈ validUpstreamMailModes

/-! ## The block -/

structure UpstreamSpec where
  services : List String := []
  attrList : String := ""
  portAttrKey : String := ""
  portAttrDefault : String := ""
  fixedPort : Int := 0

namespace Generator

def attrListServerNames (g : Generator) (attr : String) : List String :=
  match g.getConfigValue attr [.sourceServer, .sourceGlobal] with
  | none => []
  | some value => ((split value '\n').map trimSpace).filter (· ≠ "")

def resolveUpstreamPortAttr (g : Generator) (spec : UpstreamSpec) : String :=
  if spec.fixedPort ≠ 0 ∨ spec.portAttrKey = "" then ""
  else (g.getConfigValue spec.portAttrKey [.sourceGlobal]).getD spec.portAttrDefault

def resolveServerPort (g : Generator) (attrs : Attrs) (fixedPort : Int) (portAttr : String) : Int :=
  if fixedPort ≠ 0 then fixedPort
  else if atoiOr (attrValue attrs portAttr) 0 > 0 then atoiOr (attrValue attrs portAttr) 0
  else
    match g.getConfigValue portAttr [.sourceGlobal] with
    | some value => atoiOr value 0
    | none => 0

def port (g : Generator) (spec : UpstreamSpec) (attrs : Attrs) : Int :=
  g.resolveServerPort attrs spec.fixedPort (g.resolveUpstreamPortAttr spec)

/-- `generateServerDirective`, of a positive port. -/
def serverDirective (g : Generator) (hostname : String) (attrs : Attrs) (port : Int) : String :=
  let timeout := atoiOr (g.serverAttrOrGlobal attrs "zimbraMailProxyReconnectTimeout") 60
  let maxFails := atoiOr (g.serverAttrOrGlobal attrs "zimbraMailProxyMaxFails") 1
  hostname ++ ":" ++ toString port ++ " fail_timeout=" ++ toString timeout ++ "s" ++
    (if maxFails ≠ 1 then " max_fails=" ++ toString maxFails else "")

def generateServerDirective (g : Generator) (hostname : String) (attrs : Attrs) (port : Int) :
    String :=
  if port ≤ 0 then "" else g.serverDirective hostname attrs port

/-- `upstreamCandidates`, from the entries of the directory.  Both maps are gone through in some
order. -/
def upstreamCandidates (g : Generator) (spec : UpstreamSpec)
    (order : Nat → StrMap Attrs → List (String × Attrs)) (servers : StrMap Attrs) :
    List (String × Attrs) :=
  let byHost := indexServersByHost (order 0 servers)
  let selected :=
    if spec.attrList ≠ "" then
      selectByAttrList (order 1 byHost) (g.attrListServerNames spec.attrList)
    else selectByServices (order 1 byHost) spec.services
  selected.toList

def upstreamDirectives (g : Generator) (spec : UpstreamSpec) (candidates : List (String × Attrs)) :
    List String :=
  candidates.filterMap fun candidate =>
    if !isValidUpstream candidate.2 then none
    else
      let directive := g.generateServerDirective candidate.1 candidate.2 (g.port spec candidate.2)
      if directive ≠ "" then some directive else none

def serverLine (directive : String) : String :=
  "server    " ++ directive ++ ";\n"

/-- `formatServersVar`: the empty block for no directive. -/
def formatServersVar (directives : List String) : String :=
  join "" (directives.map serverLine)

/-- The resolver of `makeUpstreamResolver`: empty when the directory cannot be asked. -/
def resolveUpstream (g : Generator) (spec : UpstreamSpec)
    (order : Nat → StrMap Attrs → List (String × Attrs)) (query : Except String (StrMap Attrs)) :
    String :=
  match query with
  | .error _ => ""
  | .ok servers =>
    formatServersVar (g.upstreamDirectives spec (g.upstreamCandidates spec order servers))

end Generator

/-! ## What the block should be -/

/-- The entries that should be listed. -/
def Generator.listed (g : Generator) (spec : UpstreamSpec) (entry : String × Attrs) : Bool :=
  serverEnablesAnyService entry.2 spec.services && isValidUpstream entry.2 &&
    validHostToken (entryHost entry) && 0 < g.port spec entry.2

/-- A block that has one line for each of the entries that should be listed, with its host and
port, in the order of the hosts. -/
def Generator.ListsServers (g : Generator) (spec : UpstreamSpec) (servers : StrMap Attrs)
    (block : String) : Prop :=
  ∃ entries : List (String × Attrs), entries.Perm (servers.toList.filter (g.listed spec)) ∧
    entries.Pairwise (fun a b => entryHost a < entryHost b) ∧
    block = join "" (entries.map fun entry =>
      Generator.serverLine (g.serverDirective (entryHost entry) entry.2 (g.port spec entry.2)))

/-! ## What is selected -/

section Select

variable {order : Nat → StrMap Attrs → List (String × Attrs)}
  (horder : ∀ i map, (order i map).Perm map.toList)

include horder

theorem mem_order (i : Nat) (map : StrMap Attrs) (entry : String × Attrs) :
    entry ∈ order i map ↔ map[entry.1]? = some entry.2 := by
  rw [(horder i map).mem_iff]
  exact Std.ExtTreeMap.mem_toList_iff_getElem?_eq_some

variable {servers : StrMap Attrs}
  (hhosts : ∀ a b : String × Attrs, servers[a.1]? = some a.2 → servers[b.1]? = some b.2 →
    entryHost a = entryHost b → a = b)

variable {host : String} {attrs : Attrs}

theorem exists_of_indexServersByHost
    (h : (indexServersByHost (order 0 servers))[host]? = some attrs) :
    ∃ cn : String, servers[cn]? = some attrs ∧ entryHost (cn, attrs) = host ∧
      validHostToken host = true := by
  obtain ⟨⟨cn, found⟩, hmem, hvalid, rfl, rfl⟩ := OrdMap.exists_of_foldl_insertIf h
  exact ⟨cn, (mem_order horder 0 servers (cn, found)).mp hmem, rfl, hvalid⟩

include hhosts

theorem getElem?_indexServersByHost {cn : String} (hentry : servers[cn]? = some attrs)
    (hvalid : validHostToken (entryHost (cn, attrs)) = true) :
    (indexServersByHost (order 0 servers))[entryHost (cn, attrs)]? = some attrs := by
  have hmem : (cn, attrs) ∈ order 0 servers := (mem_order horder 0 servers (cn, attrs)).mpr hentry
  refine OrdMap.getElem?_foldl_insertIf (fun entry => validHostToken (entryHost entry)) entryHost
    Prod.snd hmem hvalid ?_
  intro other hother _ hhost
  rw [hhosts other (cn, attrs) ((mem_order horder 0 servers other).mp hother) hentry hhost]

omit hhosts in
theorem exists_of_selectByServices {services : List String}
    (h : (selectByServices (order 1 (indexServersByHost (order 0 servers))) services)[host]? =
      some attrs) :
    ∃ cn : String, servers[cn]? = some attrs ∧ validHostToken (entryHost (cn, attrs)) = true ∧
      serverEnablesAnyService attrs services = true ∧ serverHostname attrs = host := by
  obtain ⟨⟨key, found⟩, hmem, henables, rfl, rfl⟩ := OrdMap.exists_of_foldl_insertIf h
  obtain ⟨cn, hentry, hkey, hvalid⟩ := exists_of_indexServersByHost horder
    ((mem_order horder 1 _ (key, found)).mp hmem)
  rw [← hkey] at hvalid
  exact ⟨cn, hentry, hvalid, henables, rfl⟩

theorem getElem?_selectByServices {services : List String} {cn : String}
    (hentry : servers[cn]? = some attrs) (hvalid : validHostToken (entryHost (cn, attrs)) = true)
    (henables : serverEnablesAnyService attrs services = true) (hname : serverHostname attrs ≠ "") :
    (selectByServices (order 1 (indexServersByHost (order 0 servers)))
        services)[serverHostname attrs]? =
      some attrs := by
  have hmem : (entryHost (cn, attrs), attrs) ∈ order 1 (indexServersByHost (order 0 servers)) :=
    (mem_order horder 1 _ _).mpr (getElem?_indexServersByHost horder hhosts hentry hvalid)
  have hunique : ∀ other ∈ order 1 (indexServersByHost (order 0 servers)),
      serverEnablesAnyService other.2 services = true →
      serverHostname other.2 = serverHostname attrs → other.2 = attrs := by
    intro other hother _ hhost
    obtain ⟨cn', hentry', -, -⟩ := exists_of_indexServersByHost horder
      ((mem_order horder 1 _ other).mp hother)
    have hsame : entryHost (cn', other.2) = entryHost (cn, attrs) := by
      rw [entryHost, entryHost, hhost, if_neg hname, if_neg hname]
    exact congrArg Prod.snd (hhosts (cn', other.2) (cn, attrs) hentry' hentry hsame)
  have hstored := OrdMap.getElem?_foldl_insertIf
    (fun entry : String × Attrs => serverEnablesAnyService entry.2 services)
    (fun entry => serverHostname entry.2) Prod.snd hmem henables hunique
  exact hstored

end Select

/-! ## The lines -/

section Lines

variable (g : Generator) (spec : UpstreamSpec)

/-- The candidates that get a line. -/
def Generator.rendered (candidates : List (String × Attrs)) : List (String × Attrs) :=
  candidates.filter fun candidate => isValidUpstream candidate.2 && 0 < g.port spec candidate.2

theorem serverDirective_ne_empty (host : String) (attrs : Attrs) (port : Int) :
    g.serverDirective host attrs port ≠ "" := by
  intro h
  have hmem : ':' ∈ (g.serverDirective host attrs port).toList := by
    simp [Generator.serverDirective]
  rw [h] at hmem
  exact absurd hmem (by decide)

theorem directive_eq (candidate : String × Attrs) :
    (if !isValidUpstream candidate.2 then none
      else
        let directive := g.generateServerDirective candidate.1 candidate.2 (g.port spec candidate.2)
        if directive ≠ "" then some directive else none) =
      if isValidUpstream candidate.2 && 0 < g.port spec candidate.2 then
        some (g.serverDirective candidate.1 candidate.2 (g.port spec candidate.2))
      else none := by
  cases hvalid : isValidUpstream candidate.2 with
  | false => rfl
  | true =>
    by_cases hport : 0 < g.port spec candidate.2
    · simp [hport, Generator.generateServerDirective, not_le.mpr hport, serverDirective_ne_empty]
    · simp [hport, Generator.generateServerDirective, not_lt.mp hport]

theorem upstreamDirectives_eq (candidates : List (String × Attrs)) :
    g.upstreamDirectives spec candidates = (g.rendered spec candidates).map fun candidate =>
      g.serverDirective candidate.1 candidate.2 (g.port spec candidate.2) := by
  simp only [Generator.upstreamDirectives, Generator.rendered, directive_eq]
  induction candidates with
  | nil => rfl
  | cons candidate rest ih =>
    rw [List.filterMap_cons, List.filter_cons, ih]
    cases isValidUpstream candidate.2 && decide (0 < g.port spec candidate.2) <;> rfl

theorem serverLines_inj {directives directives' : List String}
    (h : ∀ directive ∈ directives, '\n' ∉ directive.toList)
    (h' : ∀ directive ∈ directives', '\n' ∉ directive.toList)
    (heq : join "" (directives.map Generator.serverLine) =
      join "" (directives'.map Generator.serverLine)) : directives = directives' := by
  let piece (directive : String) : List Char := "server    ".toList ++ directive.toList ++ [';']
  have hpieces : ∀ directives : List String,
      (join "" (directives.map Generator.serverLine)).toList =
      (directives.map piece).flatMap (· ++ ['\n']) := by
    intro directives
    rw [toList_join_empty, List.flatMap_map, List.flatMap_map]
    refine List.flatMap_congr fun directive _ => ?_
    simp [Generator.serverLine, piece]
  have hnewline : ∀ directives : List String, (∀ directive ∈ directives, '\n' ∉ directive.toList) →
      ∀ l ∈ directives.map piece, '\n' ∉ l := by
    intro directives hdirectives l hl
    obtain ⟨directive, hdirective, rfl⟩ := List.mem_map.mp hl
    simp [piece, hdirectives directive hdirective]
  have hmap := Regex.flatMap_fence_inj (hnewline _ h) (hnewline _ h')
    (by rw [← hpieces, ← hpieces, heq])
  have hinjective : Function.Injective piece := by
    intro a b hab
    have hmiddle := List.append_cancel_right hab
    exact String.toList_inj.mp (List.append_cancel_left hmiddle)
  exact List.map_injective_iff.mpr hinjective hmap

theorem notMem_repr {c : Char} (hdigit : c.isDigit = false) (hminus : c ≠ '-') (n : Int) :
    c ∉ n.repr.toList := by
  intro hmem
  rcases isDigit_of_mem_toString hmem with h | h
  · rw [hdigit] at h
    exact absurd h (by decide)
  · exact hminus h

theorem host_of_serverDirective {host' : String} {attrs' : Attrs} {port port' : Int}
    (hhost : ' ' ∉ host.toList) (hhost' : ' ' ∉ host'.toList)
    (h : g.serverDirective host attrs port = g.serverDirective host' attrs' port') :
    host = host' := by
  have hblank := notMem_repr (c := ' ') (by decide) (by decide)
  have hcolon := notMem_repr (c := ':') (by decide) (by decide)
  have hsplit : ∀ host attrs port, ∃ rest, (g.serverDirective host attrs port).toList =
      (host.toList ++ ':' :: (toString port).toList) ++ ' ' :: rest := by
    intro host attrs port
    exact ⟨_, by simp [Generator.serverDirective]; rfl⟩
  obtain ⟨rest, hrest⟩ := hsplit host attrs port
  obtain ⟨rest', hrest'⟩ := hsplit host' attrs' port'
  have hwords : (host.toList ++ ':' :: (toString port).toList) ++ ' ' :: rest =
      (host'.toList ++ ':' :: (toString port').toList) ++ ' ' :: rest' := by
    rw [← hrest, ← hrest', h]
  have hword := (Regex.append_fence_inj (by simp [hhost, hblank]) (by simp [hhost', hblank])
    hwords).1
  have hreverse : (toString port).toList.reverse ++ ':' :: host.toList.reverse =
      (toString port').toList.reverse ++ ':' :: host'.toList.reverse := by
    simpa using congrArg List.reverse hword
  have hhosts := (Regex.append_fence_inj (by simpa using hcolon port) (by simpa using hcolon port')
    hreverse).2
  exact String.toList_inj.mp (List.reverse_injective hhosts)

theorem newline_notMem_serverDirective (hhost : '\n' ∉ host.toList) (attrs : Attrs)
    (port : Int) : '\n' ∉ (g.serverDirective host attrs port).toList := by
  have hnumber := notMem_repr (c := '\n') (by decide) (by decide)
  simp only [Generator.serverDirective]
  split <;> simp [hhost, hnumber]

end Lines

theorem notMem_of_validHostToken (h : validHostToken host = true) {c : Char}
    (hc : isHostChar c = false) : c ∉ host.toList := by
  intro hmem
  have hall : ∀ c ∈ host.toList, isHostChar c = true := by
    simp only [validHostToken, Bool.and_eq_true] at h
    exact List.all_eq_true.mp h.2
  rw [hall c hmem] at hc
  exact absurd hc (by decide)

/-! ## The result -/

theorem listed_iff {g : Generator} {spec : UpstreamSpec} {entry : String × Attrs} :
    g.listed spec entry = true ↔
      (serverEnablesAnyService entry.2 spec.services = true ∧ isValidUpstream entry.2 = true ∧
        validHostToken (entryHost entry) = true ∧ 0 < g.port spec entry.2) := by
  simp only [Generator.listed, Bool.and_eq_true, decide_eq_true_eq, and_assoc]

section Result

variable {g : Generator} {spec : UpstreamSpec} {servers : StrMap Attrs}
  {order : Nat → StrMap Attrs → List (String × Attrs)}

/-- The selected entries that get a line, in the order of the block. -/
def Generator.lines (g : Generator) (spec : UpstreamSpec)
    (order : Nat → StrMap Attrs → List (String × Attrs)) (servers : StrMap Attrs) :
    List (String × Attrs) :=
  g.rendered spec
    (selectByServices (order 1 (indexServersByHost (order 0 servers))) spec.services).toList

theorem resolveUpstream_eq (hspec : spec.attrList = "") :
    g.resolveUpstream spec order (.ok servers) =
      join "" (((g.lines spec order servers).map fun line =>
        g.serverDirective line.1 line.2 (g.port spec line.2)).map Generator.serverLine) := by
  simp only [Generator.resolveUpstream, Generator.formatServersVar, upstreamDirectives_eq,
    Generator.upstreamCandidates, hspec, ne_eq, not_true_eq_false, if_false, Generator.lines]

theorem mem_lines {line : String × Attrs} : line ∈ g.lines spec order servers ↔
    (selectByServices (order 1 (indexServersByHost (order 0 servers))) spec.services)[line.1]? =
      some line.2 ∧ isValidUpstream line.2 = true ∧ 0 < g.port spec line.2 := by
  rw [Generator.lines, Generator.rendered, List.mem_filter, Bool.and_eq_true, decide_eq_true_eq]
  exact and_congr_left' Std.ExtTreeMap.mem_toList_iff_getElem?_eq_some

theorem pairwise_lines : (g.lines spec order servers).Pairwise fun a b => a.1 < b.1 := by
  have hordered := Std.ExtTreeMap.ordered_keys_toList
    (t := selectByServices (order 1 (indexServersByHost (order 0 servers))) spec.services)
  exact (hordered.imp fun h => compare_lt_iff_lt.mp h).filter _

variable (horder : ∀ i map, (order i map).Perm map.toList)

include horder

theorem listed_of_mem_lines {line : String × Attrs} (h : line ∈ g.lines spec order servers) :
    ∃ cn : String, servers[cn]? = some line.2 ∧ g.listed spec (cn, line.2) = true ∧
      serverHostname line.2 = line.1 := by
  obtain ⟨hselected, hvalid, hport⟩ := mem_lines.mp h
  obtain ⟨cn, hentry, hhost, henables, hname⟩ := exists_of_selectByServices horder hselected
  exact ⟨cn, hentry, listed_iff.mpr ⟨henables, hvalid, hhost, hport⟩, hname⟩

variable (hhosts : ∀ a b : String × Attrs, servers[a.1]? = some a.2 → servers[b.1]? = some b.2 →
  entryHost a = entryHost b → a = b)

include hhosts

theorem mem_lines_of_listed {entry : String × Attrs} (hentry : servers[entry.1]? = some entry.2)
    (hlisted : g.listed spec entry = true) (hname : serverHostname entry.2 ≠ "") :
    (entryHost entry, entry.2) ∈ g.lines spec order servers := by
  obtain ⟨henables, hvalid, hhost, hport⟩ := listed_iff.mp hlisted
  have hselected := getElem?_selectByServices horder hhosts hentry hhost henables hname
  refine mem_lines.mpr ⟨?_, hvalid, hport⟩
  rw [entryHost, if_neg hname]
  exact hselected

omit hhosts in
theorem notMem_host_of_mem_lines {line : String × Attrs} (h : line ∈ g.lines spec order servers)
    {c : Char} (hc : isHostChar c = false) : c ∉ line.1.toList := by
  obtain ⟨cn, -, hlisted, hname⟩ := listed_of_mem_lines horder h
  by_cases hempty : line.1 = ""
  · rw [hempty]
    exact List.not_mem_nil
  · have hhost : entryHost (cn, line.2) = line.1 := by
      rw [entryHost, hname, if_neg hempty]
    exact notMem_of_validHostToken (hhost ▸ (listed_iff.mp hlisted).2.2.1) hc

theorem listsServers_of_names (hspec : spec.attrList = "")
    (hnames : ∀ entry : String × Attrs, servers[entry.1]? = some entry.2 →
      g.listed spec entry = true → serverHostname entry.2 ≠ "") :
    g.ListsServers spec servers (g.resolveUpstream spec order (.ok servers)) := by
  let before (a b : String × Attrs) : Prop := entryHost a ≤ entryHost b
  have : Std.Total before := ⟨fun a b => le_total _ _⟩
  have : IsTrans (String × Attrs) before := ⟨fun _ _ _ => le_trans⟩
  let entries := (servers.toList.filter (g.listed spec)).insertionSort before
  have hmem : ∀ entry, entry ∈ entries ↔
      servers[entry.1]? = some entry.2 ∧ g.listed spec entry = true := by
    intro entry
    rw [List.mem_insertionSort, List.mem_filter]
    exact and_congr_left' Std.ExtTreeMap.mem_toList_iff_getElem?_eq_some
  have hnodup : entries.Nodup := by
    rw [(List.perm_insertionSort _ _).nodup_iff]
    exact (List.Nodup.of_map _ (OrdMap.nodup_map_fst_toList servers)).filter _
  have hsorted : entries.Pairwise fun a b => entryHost a < entryHost b := by
    refine ((List.pairwise_insertionSort before _).and hnodup).imp_of_mem ?_
    intro a b ha hb hab
    refine lt_of_le_of_ne hab.1 fun heq => hab.2 ?_
    exact hhosts a b ((hmem a).mp ha).1 ((hmem b).mp hb).1 heq
  have hlines : g.lines spec order servers =
      entries.map fun entry => (entryHost entry, entry.2) := by
    refine eq_of_sorted Prod.fst pairwise_lines (List.pairwise_map.mpr hsorted) fun line => ?_
    rw [List.mem_map]
    constructor
    · intro hline
      obtain ⟨cn, hentry, hlisted, hname⟩ := listed_of_mem_lines horder hline
      have hhost : entryHost (cn, line.2) = line.1 := by
        rw [entryHost, if_neg (hnames (cn, line.2) hentry hlisted), hname]
      exact ⟨(cn, line.2), (hmem _).mpr ⟨hentry, hlisted⟩, Prod.ext hhost rfl⟩
    · rintro ⟨entry, hentry, rfl⟩
      obtain ⟨hentry, hlisted⟩ := (hmem entry).mp hentry
      exact mem_lines_of_listed horder hhosts hentry hlisted (hnames entry hentry hlisted)
  refine ⟨entries, List.perm_insertionSort _ _, hsorted, ?_⟩
  rw [resolveUpstream_eq hspec, hlines, List.map_map, List.map_map]
  rfl

end Result

/-- **The block lists the servers it should if and only if each of them has a
`zimbraServiceHostname`.** -/
theorem lists_servers_iff (g : Generator) (spec : UpstreamSpec) (hspec : spec.attrList = "")
    (servers : StrMap Attrs) (hnodup : (servers.toList.map entryHost).Nodup)
    (order : Nat → StrMap Attrs → List (String × Attrs))
    (horder : ∀ i map, (order i map).Perm map.toList) :
    g.ListsServers spec servers (g.resolveUpstream spec order (.ok servers)) ↔
      ∀ entry : String × Attrs, servers[entry.1]? = some entry.2 → g.listed spec entry = true →
        serverHostname entry.2 ≠ "" := by
  have hhosts : ∀ a b : String × Attrs, servers[a.1]? = some a.2 → servers[b.1]? = some b.2 →
      entryHost a = entryHost b → a = b := by
    intro a b ha hb
    exact List.inj_on_of_nodup_map hnodup (Std.ExtTreeMap.mem_toList_iff_getElem?_eq_some.mpr ha)
      (Std.ExtTreeMap.mem_toList_iff_getElem?_eq_some.mpr hb)
  constructor
  · rintro ⟨entries, hperm, -, hblock⟩ entry hentry hlisted hname
    have hmem : ∀ other ∈ entries, validHostToken (entryHost other) = true := by
      intro other hother
      exact (listed_iff.mp (List.mem_filter.mp (hperm.mem_iff.mp hother)).2).2.2.1
    -- the directives of the block can be read off, so that they are those of the entries
    have hdirectives : ((g.lines spec order servers).map fun line =>
          g.serverDirective line.1 line.2 (g.port spec line.2)) =
        entries.map fun other =>
          g.serverDirective (entryHost other) other.2 (g.port spec other.2) := by
      refine serverLines_inj ?_ ?_ ?_
      · intro directive hdirective
        obtain ⟨line, hline, rfl⟩ := List.mem_map.mp hdirective
        exact newline_notMem_serverDirective g
          (notMem_host_of_mem_lines horder hline (by decide)) _ _
      · intro directive hdirective
        obtain ⟨other, hother, rfl⟩ := List.mem_map.mp hdirective
        exact newline_notMem_serverDirective g
          (notMem_of_validHostToken (hmem other hother) (by decide)) _ _
      · rw [← resolveUpstream_eq hspec, hblock, List.map_map]
        rfl
    have hlisted' : entry ∈ entries :=
      hperm.mem_iff.mpr (List.mem_filter.mpr
        ⟨Std.ExtTreeMap.mem_toList_iff_getElem?_eq_some.mpr hentry, hlisted⟩)
    obtain ⟨line, hline, hsame⟩ := List.mem_map.mp
      (hdirectives ▸ List.mem_map_of_mem (f := fun other =>
        g.serverDirective (entryHost other) other.2 (g.port spec other.2)) hlisted')
    have hhost : line.1 = entryHost entry :=
      host_of_serverDirective g (notMem_host_of_mem_lines horder hline (by decide))
        (notMem_of_validHostToken (hmem entry hlisted') (by decide)) hsame
    obtain ⟨cn, hother, -, hlinename⟩ := listed_of_mem_lines horder hline
    have hne : line.1 ≠ "" := by
      intro hempty
      have hvalid := hmem entry hlisted'
      rw [← hhost, hempty] at hvalid
      exact absurd hvalid (by decide)
    have hentryhost : entryHost (cn, line.2) = entryHost entry := by
      rw [← hhost, entryHost, hlinename, if_neg hne]
    obtain rfl := hhosts (cn, line.2) entry hother hentry hentryhost
    exact hne (hlinename.symm.trans hname)
  · exact listsServers_of_names horder hhosts hspec

/-- An entry of a mailbox server with a `zimbraServiceHostname`, which may be empty. -/
def mailboxEntry (hostname : String) : Attrs :=
  ((((∅ : Attrs).insert "zimbraServiceHostname" hostname).insert "zimbraServiceEnabled"
    "proxy\nmailbox").insert "zimbraReverseProxyLookupTarget" "TRUE").insert
      "zimbraMailMode" "https"

/-- The variable of the web client servers, with the fixed port. -/
def zxSpec : UpstreamSpec := { services := ["mailbox", "service"], fixedPort := 8742 }

def noConfig : Generator := ⟨none, none, none⟩

theorem lists_servers_two :
    noConfig.ListsServers zxSpec
      (((∅ : StrMap Attrs).insert "b" (mailboxEntry "mail1")).insert "a" (mailboxEntry "mail2"))
      (noConfig.resolveUpstream zxSpec (fun _ map => map.toList) (.ok
        (((∅ : StrMap Attrs).insert "b" (mailboxEntry "mail1")).insert "a"
          (mailboxEntry "mail2")))) := by
  refine (lists_servers_iff noConfig zxSpec rfl _ (by decide +kernel) (fun _ map => map.toList)
    (fun _ _ => List.Perm.refl _)).mpr fun entry hentry _ => ?_
  rw [OrdMap.getElem?_insert_iff, OrdMap.getElem?_insert_iff] at hentry
  split at hentry
  · rw [← Option.some.inj hentry]
    decide +kernel
  · split at hentry
    · rw [← Option.some.inj hentry]
      decide +kernel
    · simp at hentry

/-- An entry without a `zimbraServiceHostname` gets a line without a host. -/
theorem server_without_host :
    noConfig.resolveUpstream zxSpec (fun _ map => map.toList)
        (.ok ((∅ : StrMap Attrs).insert "mail1" (mailboxEntry ""))) =
      "server    :8742 fail_timeout=60s;\n" ∧
    ¬noConfig.ListsServers zxSpec ((∅ : StrMap Attrs).insert "mail1" (mailboxEntry ""))
      (noConfig.resolveUpstream zxSpec (fun _ map => map.toList)
        (.ok ((∅ : StrMap Attrs).insert "mail1" (mailboxEntry "")))) := by
  have hblock : noConfig.resolveUpstream zxSpec (fun _ map => map.toList)
        (.ok ((∅ : StrMap Attrs).insert "mail1" (mailboxEntry ""))) =
      "server    :8742 fail_timeout=60s;\n" := by
    decide +kernel
  refine ⟨hblock, ?_⟩
  rw [hblock]
  rintro ⟨entries, hperm, -, htext⟩
  have hentries : ((∅ : StrMap Attrs).insert "mail1" (mailboxEntry "")).toList =
      [("mail1", mailboxEntry "")] := rfl
  have hlisted : noConfig.listed zxSpec ("mail1", mailboxEntry "") = true := by decide +kernel
  rw [hentries, List.filter_cons_of_pos hlisted, List.filter_nil] at hperm
  rw [List.perm_singleton.mp hperm] at htext
  exact absurd htext (by decide +kernel)

end Proxy
end Configd
