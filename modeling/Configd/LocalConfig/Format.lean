import Configd.Lib.Lines
import Configd.Lib.OrdMap

/-!
# The local configuration as text

The daemon loads the effective local configuration as a map, writes it as text in
the format of `zmlocalconfig -s` (`FormatAsKeyValue`,
`internal/localconfig/localconfig.go`), caches that text and reads it back line by
line (`parseLocalConfigOutput`, `internal/configmgr/manager_load_local.go`).  The
format escapes nothing: a line break in a value ends its line, and an equals sign in
a key ends the key.

`published_iff_clean` says for which maps the map read back is the map written.
-/

namespace Configd
namespace LocalConfig

open Lib Lib.Strings

/-! ## Writing -/

/-- The line of one entry, without its line break. -/
def keyValueLine (key value : String) : String :=
  key ++ " = " ++ value

/-- The text of entries in the given order. -/
def formatEntries : List (String × String) → String
  | [] => ""
  | (key, value) :: rest => keyValueLine key value ++ "\n" ++ formatEntries rest

/-- `FormatAsKeyValue`: one line an entry, in the order of the keys. -/
def formatAsKeyValue (values : StrMap String) : String :=
  formatEntries values.toList

/-! ## Reading -/

/-- One round of the loop of `parseLocalConfigOutput`: a line without an equals sign
is passed over. -/
def parseLine (data : StrMap String) (line : String) : StrMap String :=
  match cut (trimSpace line) '=' with
  | none => data
  | some (key, value) => data.insert (trimSpace key) (trimSpace value)

/-- The lines `parseLocalConfigOutput` goes through. -/
def outputLines (output : String) : List String :=
  split (trimSpace output) '\n'

/-- The pairs of the text, before the defaults are applied. -/
def parsePairs (output : String) : StrMap String :=
  (outputLines output).foldl parseLine ∅

/-- The URIs of an OpenDKIM table: one for each LDAP server. -/
def tableURIs (ldapURL query : String) : String :=
  join " " ((fields ldapURL).map (· ++ query))

/-- The first default: the port, when it is not configured. -/
def withListenPort (data : StrMap String) : StrMap String :=
  if "zmconfigd_listen_port" ∈ data then data
  else data.insert "zmconfigd_listen_port" "7171"

/-- The LDAP servers the OpenDKIM tables are derived from. -/
def ldapURL (data : StrMap String) : String :=
  data["ldap_url"]?.getD ""

def applyLocalConfigDefaults (data : StrMap String) : StrMap String :=
  let data := withListenPort data
  if ldapURL data ≠ "" then
    (data.insert "opendkim_signingtable_uri"
      (tableURIs (ldapURL data) "/?DKIMSelector?sub?(DKIMIdentity=$d)")).insert
        "opendkim_keytable_uri"
        (tableURIs (ldapURL data) "/?DKIMDomain,DKIMSelector,DKIMKey,?sub?(DKIMSelector=$d)")
  else
    data

/-- `parseLocalConfigOutput`; `ctxErr` is the error of a context that is cancelled by
the time the text is parsed. -/
def parseLocalConfigOutput (ctxErr : Option String) (output : String) :
    Except String (StrMap String) :=
  if outputLines output = [] then
    .error "no data returned from localconfig"
  else
    match ctxErr with
    | some err => .error ("localconfig load cancelled before publish: " ++ err)
    | none => .ok (applyLocalConfigDefaults (parsePairs output))

theorem outputLines_ne_nil (output : String) : outputLines output ≠ [] := by
  simp [outputLines, split, List.splitOn, List.splitOnP_ne_nil]

/-! ## What the loop reads -/

theorem parseLine_eq (data : StrMap String) (line : String) :
    parseLine data line =
      (cutTrimmed line '=').elim data fun parts => data.insert parts.1 parts.2 := by
  have hcut : cutTrimmed (trimSpace line) '=' = cutTrimmed line '=' :=
    cutTrimmed_trimSpace (by decide) line
  rw [← hcut, cutTrimmed, parseLine]
  cases cut (trimSpace line) '=' <;> rfl

theorem parseLine_blank (data : StrMap String) : parseLine data "" = data := by
  have hcut : cutTrimmed "" '=' = none := by decide
  rw [parseLine_eq, hcut, Option.elim_none]

theorem parsePairs_eq_foldl (output : String) :
    parsePairs output = (split output '\n').foldl parseLine ∅ :=
  foldl_split_trimSpace parseLine_blank (fun _ _ => by
    rw [parseLine_eq, parseLine_eq, cutTrimmed_trimSpace (by decide)]) output ∅

/-- A key that can be written: reading back neither trims it nor cuts it short. -/
def CleanKey (key : String) : Prop :=
  trimSpace key = key ∧ '=' ∉ key.toList ∧ '\n' ∉ key.toList

instance (key : String) : Decidable (CleanKey key) :=
  inferInstanceAs (Decidable (_ ∧ _ ∧ _))

/-- A map that can be written: its keys are clean and each value is one line. -/
def Clean (values : StrMap String) : Prop :=
  ∀ key value, values[key]? = some value → CleanKey key ∧ '\n' ∉ value.toList

/-- The values carry no white space at their ends, as those of `LoadEffective`. -/
def Trimmed (values : StrMap String) : Prop :=
  ∀ key value : String, values[key]? = some value → trimSpace value = value

theorem Clean.parseLine {data : StrMap String} (hdata : Clean data) {line : String}
    (hline : '\n' ∉ line.toList) : Clean (parseLine data line) := by
  intro key value hvalue
  rw [parseLine_eq] at hvalue
  cases hcut : cutTrimmed line '=' with
  | none =>
    rw [hcut, Option.elim_none] at hvalue
    exact hdata key value hvalue
  | some parts =>
    rw [hcut, Option.elim_some, OrdMap.getElem?_insert_iff] at hvalue
    split at hvalue
    · rename_i hkey
      obtain ⟨htrim, hequals, hfirst, hsecond⟩ := cutTrimmed_eq_some hcut
      cases hvalue
      subst hkey
      exact ⟨⟨htrim, hequals, fun h => hline (hfirst _ h)⟩, fun h => hline (hsecond _ h)⟩
    · exact hdata key value hvalue

/-- **Every pair that is read is clean**, whatever the text. -/
theorem clean_parsePairs (output : String) : Clean (parsePairs output) := by
  have hloop : ∀ (lines : List String) (data : StrMap String), Clean data →
      (∀ line ∈ lines, '\n' ∉ line.toList) → Clean (lines.foldl LocalConfig.parseLine data) := by
    intro lines
    induction lines with
    | nil =>
      intro data hdata _
      exact hdata
    | cons line rest ih =>
      intro data hdata hlines
      rw [List.foldl_cons]
      exact ih _ (hdata.parseLine (hlines line List.mem_cons_self)) fun other hother =>
        hlines other (List.mem_cons_of_mem line hother)
  refine hloop _ _ ?_ fun line hline => not_mem_of_mem_split hline
  intro key value hvalue
  simp at hvalue

/-! ## Reading back what was written -/

theorem parseLine_keyValueLine (data : StrMap String) {key value : String} (hkey : CleanKey key)
    (htrimmed : trimSpace value = value) :
    parseLine data (keyValueLine key value) = data.insert key value := by
  obtain ⟨hname, hequals, -⟩ := hkey
  have hbefore : trimSpace (key ++ " ") = key := by
    have hspace := trimSpace_concat (c := ' ') (by decide) key.toList
    rwa [String.ofList_append, String.ofList_toList, hname] at hspace
  have hafter : trimSpace (" " ++ value) = value := by
    have hspace := trimSpace_cons (c := ' ') (by decide) value.toList
    rwa [← List.singleton_append, String.ofList_append, String.ofList_toList, htrimmed] at hspace
  have hline : keyValueLine key value = (key ++ " ") ++ String.ofList ['='] ++ (" " ++ value) := by
    have hmiddle : (" = " : String) = " " ++ String.ofList ['='] ++ " " := by decide
    rw [keyValueLine, hmiddle]
    simp only [String.append_assoc]
  have hcut : cutTrimmed (keyValueLine key value) '=' = some (key, value) := by
    rw [hline, cutTrimmed, cut_append _ _ _ (by simpa using hequals), Option.map_some, hbefore,
      hafter]
  rw [parseLine_eq, hcut, Option.elim_some]

theorem split_formatEntries (entries : List (String × String))
    (hlines : ∀ entry ∈ entries, '\n' ∉ (keyValueLine entry.1 entry.2).toList) :
    split (formatEntries entries) '\n' =
      entries.map (fun entry => keyValueLine entry.1 entry.2) ++ [""] := by
  induction entries with
  | nil => rfl
  | cons entry rest ih =>
    obtain ⟨key, value⟩ := entry
    have htext : formatEntries ((key, value) :: rest) =
        String.ofList ((keyValueLine key value).toList ++ '\n' :: (formatEntries rest).toList) := by
      rw [formatEntries, ← List.singleton_append, String.ofList_append, String.ofList_append,
        String.ofList_toList, String.ofList_toList, String.append_assoc]
    rw [htext, split_ofList_append, split_ofList_of_not_mem (hlines _ List.mem_cons_self),
      String.ofList_toList, String.ofList_toList,
      ih fun other hother => hlines other (List.mem_cons_of_mem _ hother)]
    rfl

theorem foldl_parseLine_entries (entries : List (String × String))
    (hentries : ∀ entry ∈ entries, CleanKey entry.1 ∧ trimSpace entry.2 = entry.2)
    (data : StrMap String) :
    (entries.map fun entry => keyValueLine entry.1 entry.2).foldl parseLine data =
      entries.foldl (fun data entry => data.insert entry.1 entry.2) data := by
  induction entries generalizing data with
  | nil => rfl
  | cons entry rest ih =>
    obtain ⟨hkey, hvalue⟩ := hentries entry List.mem_cons_self
    rw [List.map_cons, List.foldl_cons, List.foldl_cons,
      parseLine_keyValueLine data hkey hvalue]
    exact ih (fun other hother => hentries other (List.mem_cons_of_mem entry hother)) _

theorem foldl_insert_toList (values : StrMap String) :
    values.toList.foldl (fun data entry => data.insert entry.1 entry.2) ∅ = values := by
  apply Std.ExtTreeMap.ext_getElem?
  intro key
  rw [OrdMap.getElem?_foldl_toList _ (fun _ _ value => some value)]
  · cases values[key]? <;> simp
  · intro map item
    simp
  · intro map item other hne
    rw [OrdMap.getElem?_insert_iff, if_neg hne]

/-- **A clean map is read back as it was written.** -/
theorem parsePairs_formatAsKeyValue {values : StrMap String} (hclean : Clean values)
    (htrimmed : Trimmed values) : parsePairs (formatAsKeyValue values) = values := by
  have hentry : ∀ entry ∈ values.toList, values[entry.1]? = some entry.2 :=
    fun _ hmem => Std.ExtTreeMap.mem_toList_iff_getElem?_eq_some.mp hmem
  have hlines : ∀ entry ∈ values.toList, '\n' ∉ (keyValueLine entry.1 entry.2).toList := by
    intro entry hmem
    obtain ⟨⟨-, -, hkey⟩, hvalue⟩ := hclean _ _ (hentry entry hmem)
    simpa [keyValueLine] using ⟨hkey, hvalue⟩
  rw [parsePairs_eq_foldl, formatAsKeyValue, split_formatEntries _ hlines, List.foldl_append,
    foldl_parseLine_entries _ ?_ ∅, foldl_insert_toList]
  · rw [List.foldl_cons, List.foldl_nil, parseLine_blank]
  · intro entry hmem
    exact ⟨(hclean _ _ (hentry entry hmem)).1, htrimmed _ _ (hentry entry hmem)⟩

/-! ## The published map -/

/-- The keys `applyLocalConfigDefaults` computes from `ldap_url`. -/
def derivedKeys : List String :=
  ["opendkim_signingtable_uri", "opendkim_keytable_uri"]

theorem cleanKey_of_mem_derivedKeys : ∀ key ∈ derivedKeys, CleanKey key := by
  decide +kernel

theorem getElem?_withListenPort (data : StrMap String) (key : String) :
    (withListenPort data)[key]? =
      if key = "zmconfigd_listen_port" then some (data[key]?.getD "7171") else data[key]? := by
  rw [withListenPort]
  by_cases hmem : "zmconfigd_listen_port" ∈ data
  · obtain ⟨value, hvalue⟩ := (OrdMap.mem_iff_getElem?_isSome data _).mp hmem
    rw [if_pos hmem]
    by_cases heq : key = "zmconfigd_listen_port"
    · rw [if_pos heq, heq, hvalue, Option.getD_some]
    · rw [if_neg heq]
  · have hnone := (OrdMap.getElem?_eq_none_iff data _).mpr hmem
    rw [if_neg hmem, OrdMap.getElem?_insert_iff]
    by_cases heq : key = "zmconfigd_listen_port"
    · rw [if_pos heq, if_pos heq.symm, heq, hnone, Option.getD_none]
    · rw [if_neg heq, if_neg (Ne.symm heq)]

theorem ldapURL_withListenPort (data : StrMap String) :
    ldapURL (withListenPort data) = ldapURL data := by
  rw [ldapURL, getElem?_withListenPort, if_neg (by decide), ldapURL]

theorem getElem?_applyLocalConfigDefaults (data : StrMap String) {key : String}
    (hkey : key ∈ derivedKeys → ldapURL data = "") :
    (applyLocalConfigDefaults data)[key]? =
      if key = "zmconfigd_listen_port" then some (data[key]?.getD "7171") else data[key]? := by
  rw [← getElem?_withListenPort]
  simp only [applyLocalConfigDefaults, ldapURL_withListenPort]
  by_cases hempty : ldapURL data = ""
  · rw [if_neg (not_not.mpr hempty)]
  · have hother : key ∉ derivedKeys := fun h => hempty (hkey h)
    simp only [derivedKeys, List.mem_cons, List.not_mem_nil, or_false, not_or] at hother
    rw [if_pos hempty, OrdMap.getElem?_insert_iff, if_neg (Ne.symm hother.2),
      OrdMap.getElem?_insert_iff, if_neg (Ne.symm hother.1)]

theorem Clean.of_defaults_eq {read values : StrMap String} (hclean : Clean read)
    (hpublished : applyLocalConfigDefaults read = applyLocalConfigDefaults values)
    {key value : String} (hvalue : values[key]? = some value) :
    CleanKey key ∧ ('\n' ∈ value.toList → key ∈ derivedKeys ∧ ldapURL values ≠ "") := by
  have hat : ∀ key : String,
      (applyLocalConfigDefaults read)[key]? = (applyLocalConfigDefaults values)[key]? := by
    intro key
    rw [hpublished]
  have hldap : ldapURL read = ldapURL values := by
    have hurl := hat "ldap_url"
    have hnot : "ldap_url" ∉ derivedKeys := by decide
    rw [getElem?_applyLocalConfigDefaults read (fun h => absurd h hnot),
      getElem?_applyLocalConfigDefaults values (fun h => absurd h hnot), if_neg (by decide),
      if_neg (by decide)] at hurl
    rw [ldapURL, hurl, ldapURL]
  by_cases hderived : key ∈ derivedKeys ∧ ldapURL values ≠ ""
  · exact ⟨cleanKey_of_mem_derivedKeys key hderived.1, fun _ => hderived⟩
  · have hempty : key ∈ derivedKeys → ldapURL values = "" := by
      intro hmem
      by_contra hne
      exact hderived ⟨hmem, hne⟩
    have hkey := hat key
    rw [getElem?_applyLocalConfigDefaults values hempty,
      getElem?_applyLocalConfigDefaults read fun h => hldap.trans (hempty h), hvalue] at hkey
    have hresult : CleanKey key ∧ '\n' ∉ value.toList := by
      cases hentry : read[key]? with
      | some found =>
        have hfound : found = value := by
          simpa [hentry] using hkey
        rw [← hfound]
        exact hclean key found hentry
      | none =>
        -- Only the port can be missing from the text and right all the same.
        have hport : key = "zmconfigd_listen_port" ∧ "7171" = value := by
          simpa [hentry] using hkey
        rw [hport.1, ← hport.2]
        decide +kernel
    exact ⟨hresult.1, fun hbreak => absurd hbreak hresult.2⟩

/-- **The published map is the effective one** exactly when that can be written: for a
map with trimmed values the pairs read back are those written, and the map published is
the map with the defaults applied, exactly when every key is clean and every value one
line.  A wrong value can only stay unnoticed under a key that the defaults overwrite. -/
theorem published_iff_clean (values : StrMap String) (htrimmed : Trimmed values) :
    (parsePairs (formatAsKeyValue values) = values ∧
        parseLocalConfigOutput none (formatAsKeyValue values) =
          .ok (applyLocalConfigDefaults values) ↔
      Clean values) ∧
    (parseLocalConfigOutput none (formatAsKeyValue values) =
        .ok (applyLocalConfigDefaults values) →
      ∀ key value, values[key]? = some value →
        CleanKey key ∧ ('\n' ∈ value.toList → key ∈ derivedKeys ∧ ldapURL values ≠ "")) := by
  rw [parseLocalConfigOutput, if_neg (outputLines_ne_nil _)]
  refine ⟨⟨?_, ?_⟩, ?_⟩
  · rintro ⟨hread, -⟩
    rw [← hread]
    exact clean_parsePairs _
  · intro hclean
    have hread := parsePairs_formatAsKeyValue hclean htrimmed
    rw [hread]
    exact ⟨rfl, rfl⟩
  · intro hpublished key value hvalue
    exact (clean_parsePairs _).of_defaults_eq (Except.ok.inj hpublished) hvalue

def twoServers : StrMap String :=
  (∅ : StrMap String).insert "ldap_url" "ldap://a:389 ldap://b:389"

theorem trimmed_twoServers : Trimmed twoServers := by
  intro key value hvalue
  rw [twoServers, OrdMap.getElem?_insert_iff] at hvalue
  split at hvalue
  · cases hvalue
    decide
  · simp at hvalue

theorem published_twoServers :
    (parsePairs (formatAsKeyValue twoServers) = twoServers ∧
        parseLocalConfigOutput none (formatAsKeyValue twoServers) =
          .ok (applyLocalConfigDefaults twoServers) ↔
      Clean twoServers) ∧ Clean twoServers := by
  refine ⟨(published_iff_clean twoServers trimmed_twoServers).1, ?_⟩
  intro key value hvalue
  rw [twoServers, OrdMap.getElem?_insert_iff] at hvalue
  split at hvalue
  · rename_i hkey
    cases hvalue
    subst hkey
    decide
  · simp at hvalue

/-- The two sections of the scope on two lines, as an XML value may have them. -/
def twoSections : StrMap String :=
  (∅ : StrMap String).insert "zmconfigd_sections" "proxy\nmta"

/-- The published scope has lost its second section, and the local map read back is not
the one written. -/
theorem section_lost :
    (parseLocalConfigOutput none (formatAsKeyValue twoSections)).toOption.bind
        (fun data => data["zmconfigd_sections"]?) = some "proxy" ∧
      (applyLocalConfigDefaults twoSections)["zmconfigd_sections"]? = some "proxy\nmta" ∧
      ∀ key value : String, twoSections[key]? = some value → trimSpace value = value := by
  refine ⟨by decide +kernel, by decide +kernel, ?_⟩
  intro key value hvalue
  rw [twoSections, OrdMap.getElem?_insert_iff] at hvalue
  split at hvalue
  · cases hvalue
    decide
  · simp at hvalue

end LocalConfig
end Configd
