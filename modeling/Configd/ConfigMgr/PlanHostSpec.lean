import Configd.ConfigMgr.PlanHost

/-!
# What planning against the host gives

The proof of `planHost_meets`.  The candidate and the plan are made from the same
builder (`unpruned`), which does not depend on the host; the drift of an entry is
found under its own key, because no key is listed twice; and for each kind of action
the drift is non-empty exactly when the action would change something, or cannot be
compared.
-/

namespace Configd

open Lib

/-! ## Keeping what drifted -/

section Drift

variable {T : Type} {key : T → String} {reasons : T → List Reason}
  {mapReasons : (List Reason → List Reason) → T → T}

theorem driftReasons_eq_some_iff (drift : String) (reasons : List Reason) :
    driftReasons drift = some reasons ↔
      drift ≠ "" ∧ reasons = [{ kind := .drift, detail := drift }] := by
  unfold driftReasons
  by_cases hdrift : drift = ""
  · simp [hdrift]
  · simp [hdrift, eq_comm]

theorem getElem?_keepDrifted {K : Type} [Ord K] [Std.TransOrd K] [Std.LawfulEqOrd K]
    (drift : K → String) (map : OrdMap K T) (name : K) (it : T) :
    (keepDrifted mapReasons drift map)[name]? = some it ↔
      ∃ found, map[name]? = some found ∧ drift name ≠ "" ∧
        it = mapReasons (fun _ => [{ kind := .drift, detail := drift name }]) found := by
  rw [keepDrifted, Std.ExtTreeMap.getElem?_filterMap', Option.bind_eq_some_iff]
  constructor
  · rintro ⟨found, hfound, hkept⟩
    obtain ⟨reasons, hreasons, rfl⟩ := Option.map_eq_some_iff.mp hkept
    obtain ⟨hdrift, rfl⟩ := (driftReasons_eq_some_iff _ _).mp hreasons
    exact ⟨found, hfound, hdrift, rfl⟩
  · rintro ⟨found, hfound, hdrift, rfl⟩
    refine ⟨found, hfound, ?_⟩
    rw [(driftReasons_eq_some_iff _ _).mpr ⟨hdrift, rfl⟩, Option.map_some]

theorem keptIn_of_mem_keepDrifted (href : LawfulRef key reasons mapReasons)
    {drift : String → String} {map : StrMap T} {it : T}
    (hmem : it ∈ OrdMap.valuesList (keepDrifted mapReasons drift map)) :
    KeptIn mapReasons map.valuesList it := by
  obtain ⟨name, hname⟩ := (OrdMap.mem_valuesList_iff _ _).mp hmem
  obtain ⟨found, hfound, -, rfl⟩ := (getElem?_keepDrifted drift map name it).mp hname
  refine ⟨found, (OrdMap.mem_valuesList_iff _ _).mpr ⟨name, hfound⟩, ?_⟩
  rw [href.map_map]

/-- **An entry is kept exactly when it drifted.** -/
theorem keptIn_keepDrifted_iff (href : LawfulRef key reasons mapReasons)
    {drift : String → String} {map : StrMap T} (hmap : OrdMap.Keyed key map) {it : T}
    (hit : it ∈ map.valuesList) :
    KeptIn mapReasons (OrdMap.valuesList (keepDrifted mapReasons drift map)) it ↔
      drift (key it) ≠ "" := by
  constructor
  · rintro ⟨kept, hkept, hsame⟩
    obtain ⟨name, hname⟩ := (OrdMap.mem_valuesList_iff _ _).mp hkept
    obtain ⟨found, hfound, hdrift, rfl⟩ := (getElem?_keepDrifted drift map name kept).mp hname
    -- Two entries that differ in their reasons only have the same key.
    have hkey : key found = key it := by
      rw [← href.key_map (fun _ => []) it, ← hsame, href.key_map, href.key_map]
    rwa [← hkey, hmap name found hfound]
  · intro hdrift
    have hfound := hmap.getElem?_of_mem hit
    refine ⟨mapReasons (fun _ => [{ kind := .drift, detail := drift (key it) }]) it, ?_, ?_⟩
    · exact (OrdMap.mem_valuesList_iff _ _).mpr
        ⟨key it, (getElem?_keepDrifted drift map _ _).mpr ⟨it, hfound, hdrift, rfl⟩⟩
    · rw [href.map_map]

end Drift

theorem mapfileRef : LawfulRef Mapfile.key Mapfile.reasons Mapfile.mapReasons :=
  ⟨fun _ _ _ => rfl, fun _ _ => rfl, fun _ _ => rfl⟩

/-- One round of `promoteHeal`. -/
def promoteOne (h : Host) (mapfiles : OrdMap MapfileKey Mapfile) (entry : String × Mapfile) :
    OrdMap MapfileKey Mapfile :=
  match driftReasons (driftOf h.mapfiles entry.1) with
  | some reasons =>
    mapfiles.insert ⟨entry.1, false⟩
      ((mapfiles[(⟨entry.1, false⟩ : MapfileKey)]?.getD entry.2).mapReasons fun _ => reasons)
  | none => mapfiles

theorem promoteOne_self (h : Host) (mapfiles : OrdMap MapfileKey Mapfile)
    (entry : String × Mapfile) :
    (promoteOne h mapfiles entry)[(⟨entry.1, false⟩ : MapfileKey)]? =
      match driftReasons (driftOf h.mapfiles entry.1) with
      | some reasons => some ((mapfiles[(⟨entry.1, false⟩ : MapfileKey)]?.getD
          entry.2).mapReasons fun _ => reasons)
      | none => mapfiles[(⟨entry.1, false⟩ : MapfileKey)]? := by
  unfold promoteOne
  cases driftReasons (driftOf h.mapfiles entry.1) with
  | none => rfl
  | some reasons => simp

theorem promoteOne_other (h : Host) (mapfiles : OrdMap MapfileKey Mapfile)
    (entry : String × Mapfile) (mk : MapfileKey) (hne : (⟨entry.1, false⟩ : MapfileKey) ≠ mk) :
    (promoteOne h mapfiles entry)[mk]? = mapfiles[mk]? := by
  unfold promoteOne
  cases driftReasons (driftOf h.mapfiles entry.1) with
  | none => rfl
  | some reasons => simp [OrdMap.getElem?_insert_iff, hne]

theorem getElem?_promoteHeal (h : Host) (heal : StrMap Mapfile) (mk : MapfileKey) :
    (promoteHeal h heal ∅)[mk]? =
      if mk.isLocal then none
      else (keepDrifted Mapfile.mapReasons (driftOf h.mapfiles) heal)[mk.key]? := by
  change (heal.toList.foldl (promoteOne h) ∅)[mk]? = _
  have hinj : Function.Injective fun name : String => (⟨name, false⟩ : MapfileKey) := by
    intro left right heq
    exact congrArg MapfileKey.key heq
  have hnodup : (heal.toList.map fun entry => (⟨entry.1, false⟩ : MapfileKey)).Nodup := by
    have hkeys := (OrdMap.nodup_map_fst_toList heal).map hinj
    rwa [List.map_map] at hkeys
  by_cases hmem : mk ∈ heal.toList.map fun entry => (⟨entry.1, false⟩ : MapfileKey)
  · obtain ⟨⟨name, m⟩, hentry, rfl⟩ := List.mem_map.mp hmem
    have hfound := Std.ExtTreeMap.mem_toList_iff_getElem?_eq_some.mp hentry
    have hround := foldl_view_of_mem (fun (map : OrdMap MapfileKey Mapfile) k => map[k]?)
      (promoteOne h) (fun entry => (⟨entry.1, false⟩ : MapfileKey)) (promoteOne_other h)
      (fun entry old new => new = match driftReasons (driftOf h.mapfiles entry.1) with
        | some reasons => some ((old.getD entry.2).mapReasons fun _ => reasons)
        | none => old)
      (promoteOne_self h) hnodup ∅ hentry
    simp only at hround
    rw [hround, keepDrifted, Std.ExtTreeMap.getElem?_filterMap', hfound]
    cases driftReasons (driftOf h.mapfiles name) with
    | none => simp
    | some reasons => simp
  · rw [foldl_view_of_not_mem (fun (map : OrdMap MapfileKey Mapfile) k => map[k]?)
      (promoteOne h) (fun entry => (⟨entry.1, false⟩ : MapfileKey)) (promoteOne_other h) _ _ _ hmem]
    obtain ⟨name, isLocal⟩ := mk
    cases isLocal with
    | true => simp
    | false =>
      have hnone : heal[name]? = none := by
        cases hfound : heal[name]? with
        | none => rfl
        | some m =>
          exact absurd (List.mem_map.mpr
            ⟨(name, m), Std.ExtTreeMap.mem_toList_iff_getElem?_eq_some.mpr hfound, rfl⟩) hmem
      simp [keepDrifted, hnone]

theorem mem_pruned_mapfiles (h : Host) (heal : StrMap Mapfile) (m : Mapfile) :
    m ∈ OrdMap.valuesList (keepDrifted Mapfile.mapReasons
        (fun mk : MapfileKey => driftOf h.mapfiles mk.key) (promoteHeal h heal ∅)) ↔
      m ∈ OrdMap.valuesList (keepDrifted Mapfile.mapReasons (driftOf h.mapfiles) heal) := by
  simp only [OrdMap.mem_valuesList_iff, getElem?_keepDrifted, getElem?_promoteHeal]
  constructor
  · rintro ⟨⟨name, isLocal⟩, found, hfound, hdrift, rfl⟩
    cases isLocal with
    | true => simp at hfound
    | false =>
      simp only [Bool.false_eq_true, if_false] at hfound
      obtain ⟨m, hm, -, rfl⟩ := (getElem?_keepDrifted _ _ _ _).mp hfound
      exact ⟨name, m, hm, hdrift, rfl⟩
  · rintro ⟨name, found, hfound, hdrift, rfl⟩
    set m := found.mapReasons fun _ => [{ kind := .drift, detail := driftOf h.mapfiles name }]
    have hkept : (keepDrifted Mapfile.mapReasons (driftOf h.mapfiles) heal)[name]? = some m :=
      (getElem?_keepDrifted _ _ _ _).mpr ⟨found, hfound, hdrift, rfl⟩
    exact ⟨⟨name, false⟩, m, by simpa using hkept, hdrift, rfl⟩

/-! ## What the observation finds -/

namespace HostPlanner

theorem observeAll_spec {T : Type} {key : T → String} {drift : T → Except PlanHostError String}
    {list : List T} {seen out : StrMap String} (hlist : (list.map key).Nodup)
    (hout : observeAll key drift list seen = .ok out) :
    (∀ it ∈ list, ∃ text, drift it = .ok text ∧
        (key it ∉ seen → driftOf out (key it) = text)) ∧
      ∀ name : String, name ∉ list.map key → out[name]? = seen[name]? := by
  induction list generalizing seen with
  | nil =>
    rw [observeAll, Except.ok.injEq] at hout
    subst hout
    simp
  | cons it rest ih =>
    rw [List.map_cons, List.nodup_cons] at hlist
    rw [observeAll] at hout
    cases hdrift : drift it with
    | error err => simp [hdrift] at hout
    | ok text =>
      simp only [hdrift] at hout
      obtain ⟨hfound, hother⟩ := ih hlist.2 hout
      set seen' := if text = "" then seen else seen.insert (key it) text with hseen'
      have hkeep : ∀ name : String, name ≠ key it → seen'[name]? = seen[name]? := by
        intro name hne
        rw [hseen']
        split
        · rfl
        · rw [OrdMap.getElem?_insert_iff, if_neg (Ne.symm hne)]
      constructor
      · intro other hmem
        rcases List.mem_cons.mp hmem with rfl | hrest
        · refine ⟨text, hdrift, ?_⟩
          intro hnew
          rw [driftOf, hother _ hlist.1, hseen']
          split
          · rename_i hempty
            rw [(OrdMap.getElem?_eq_none_iff seen _).mpr hnew, hempty, Option.getD_none]
          · simp
        · obtain ⟨found, hok, hin⟩ := hfound other hrest
          refine ⟨found, hok, ?_⟩
          intro hnew
          apply hin
          have hne : key other ≠ key it := by
            intro heq
            exact hlist.1 (heq ▸ List.mem_map_of_mem hrest)
          rw [← OrdMap.getElem?_eq_none_iff, hkeep _ hne, OrdMap.getElem?_eq_none_iff]
          exact hnew
      · intro name hname
        rw [List.map_cons, List.mem_cons, not_or] at hname
        rw [hother name hname.2, hkeep name hname.1]

/-! ## The drift of each kind of action -/

variable (hp : HostPlanner)

theorem afterRewrite_of_render {r : Rewrite} {content : List UInt8} {perm : Nat}
    (hrender : hp.renderRewrite r = .ok (content, perm)) :
    hp.afterRewrite r = some { content, perm } := by
  unfold renderRewrite at hrender
  cases hmode : rewriteFileMode r.mode with
  | none => simp [hmode] at hrender
  | some mode =>
    simp only [hmode] at hrender
    cases htransform : rewriteTransform (hp.template r.source) fun _ => true with
    | mk text err =>
      cases err with
      | some err => simp [htransform] at hrender
      | none =>
        simp only [htransform, Except.ok.injEq, Prod.mk.injEq] at hrender
        simp [afterRewrite, processRewrite, htransform, rewriteAtomicCommit, hmode,
          cleanupRewriteFiles, hrender]

/-- **A rewrite drifts** when it would change its target, or cannot see it. -/
theorem rewriteDrift_ne_empty_iff {r : Rewrite} {text : String}
    (hdrift : hp.rewriteDrift r = .ok text) :
    text ≠ "" ↔ hp.RewriteHidden r ∨ hp.RewriteChanges r := by
  unfold rewriteDrift at hdrift
  simp only at hdrift
  cases hrender : hp.renderRewrite r with
  | error err => simp [hrender] at hdrift
  | ok rendered =>
    obtain ⟨content, perm⟩ := rendered
    simp only [hrender] at hdrift
    unfold RewriteHidden RewriteChanges
    rw [hp.afterRewrite_of_render hrender]
    cases hfile : hp.file (hp.targetPath r) with
    | none =>
      simp only [hfile, Except.ok.injEq] at hdrift
      subst hdrift
      simp
    | some f =>
      simp only [hfile] at hdrift
      split_ifs at hdrift with hstat hread hcontent hperm
      all_goals
        rw [Except.ok.injEq] at hdrift
        subst hdrift
      · simp_all
      · simp_all
      · simpa using Or.inr fun hsame => absurd hsame (Ne.symm hcontent)
      · simpa using Or.inr fun _ hsame => hperm hsame.symm
      · simp_all

/-- **A `POSTCONF` drifts** when it would change its parameter, or cannot tell. -/
theorem postconfDrift_ne_empty_iff {p : Directive} {text : String}
    (hdrift : hp.postconfDrift p = .ok text) :
    text ≠ "" ↔ hp.postconfValue p = none ∨ hp.PostconfChanges p := by
  unfold postconfDrift at hdrift
  unfold PostconfChanges afterPostconf
  cases hvalue : hp.postconfValue p with
  | none =>
    simp only [hvalue, Except.ok.injEq] at hdrift
    subst hdrift
    simp
  | some value =>
    simp only [hvalue] at hdrift
    cases hread : readPostconf hp.mta p.key false with
    | none => simp [hread] at hdrift
    | some found =>
      obtain ⟨current, set⟩ := found
      obtain ⟨hkey, effective, heffective, hfields⟩ := readPostconf_effective hread
      have hafter : (executePostconf hp.mta p.key value).effective p.key =
          some (normalizePostconfValue value) := by
        simp [executePostconf, hkey, Postfix.effective]
      simp only [hread] at hdrift
      simp only [hafter, heffective, hfields, Option.map_some, ne_eq, Option.some.injEq] at hdrift ⊢
      split_ifs at hdrift with hsame
      all_goals
        rw [Except.ok.injEq] at hdrift
        subst hdrift
      · simp [hsame]
      · simpa using fun heq => hsame heq.symm

/-- **A `POSTCONFD` drifts** when there is a setting to remove. -/
theorem postconfdDrift_ne_empty_iff {p : Directive} {text : String}
    (hdrift : hp.postconfdDrift p = .ok text) :
    text ≠ "" ↔ hp.PostconfdChanges p := by
  unfold postconfdDrift at hdrift
  cases hread : readPostconf hp.mta p.key true with
  | none => simp [hread] at hdrift
  | some found =>
    obtain ⟨value, set⟩ := found
    have hset := readPostconf_explicit hread
    simp only [hread, Except.ok.injEq] at hdrift
    subst hdrift
    unfold PostconfdChanges executePostconfd
    rw [OrdMap.getElem?_erase_iff, if_pos rfl, ne_comm (a := none), ← Option.isSome_iff_ne_none,
      ← Std.ExtTreeMap.mem_iff_isSome_getElem?, ← hset]
    cases set with
    | true => simp
    | false => simp

theorem exists_decode_mappedFileBase64 (key : String) :
    ∃ want, Base64.decode (hp.mappedFileBase64 key) = some want := by
  unfold mappedFileBase64
  simp only
  split
  · exact ⟨[], by decide⟩
  · split
    · rename_i hdecodes
      exact Option.isSome_iff_exists.mp hdecodes
    · exact ⟨_, Base64.decode_encode _⟩

/-- **A mapped file drifts** when its sync would change it. -/
theorem mapfileDrift_ne_empty_iff {m : Mapfile} (hlocal : m.isLocal = false)
    (hseen : hp.MapfileSeen m) : hp.mapfileDrift m ≠ "" ↔ hp.MapfileChanges m := by
  obtain ⟨hreads, hstands⟩ := hseen
  unfold mapfileDrift MapfileChanges
  cases hpath : mappedFiles m.key with
  | none => simp
  | some relPath =>
    obtain ⟨want, hwant⟩ := hp.exists_decode_mappedFileBase64 m.key
    have hempty : hp.mappedFileBase64 m.key = "" ↔ want = [] := by
      constructor
      · intro hnone
        rw [hnone] at hwant
        exact (Option.some.inj (hwant.symm.trans (by decide : Base64.decode "" = some [])))
      · rintro rfl
        exact hstands.resolve_right fun hne => hne hwant
    have hchanges : (∃ path, some relPath = some path ∧
        (hp.afterSync m path).map HostFile.content ≠
          (hp.file (hp.mappedPath path)).map HostFile.content) ↔
        (hp.afterSync m relPath).map HostFile.content ≠
          (hp.file (hp.mappedPath relPath)).map HostFile.content := by
      simp
    rw [hchanges]
    simp only [hlocal, hwant, Bool.false_eq_true, if_false, afterSync, executeMapFile, hempty]
    cases hfile : hp.file (hp.mappedPath relPath) with
    | none => cases want <;> simp [HostFile.read]
    | some f =>
      obtain ⟨hstat, hread⟩ := hreads relPath f hpath hfile
      cases want with
      | nil => simp [HostFile.read, hstat, hread]
      | cons byte rest =>
        by_cases hsame : f.content = byte :: rest
        · simp [HostFile.read, hread, hsame]
        · have hne : byte :: rest ≠ f.content := fun heq => hsame heq.symm
          simp [HostFile.read, hread, hsame, hne]

/-! ## The two plans -/

/-- The builder before the comparison with the host, which it does not depend on. -/
def unpruned (scope : List String) : Builder :=
  trackServices (hp.input scope) (processSections (hp.input scope) {})

theorem candidate_eq {scope : List String} {cand : Plan}
    (hcand : compute (hp.input scope) = some cand) :
    cand = finish (hp.input scope) (hp.unpruned scope) :=
  (compute_eq_some hcand).2

theorem pruned_eq {scope : List String} {host : Host} {pl : Plan}
    (hpl : compute { hp.input scope with host := some host } = some pl) :
    pl = finish (hp.input scope) (pruneToHost (hp.unpruned scope) (some host)) :=
  (compute_eq_some hpl).2

theorem changesOf_input (scope : List String) (sn : String) (sec : MtaConfigSection) :
    changesOf (hp.input scope) sn sec = [] := by
  unfold changesOf
  split
  · rw [diffSection_eq_nil_iff]
    intro type key _ hchanged
    exact hchanged rfl
  · rfl

theorem unpruned_mapfiles (scope : List String) : (hp.unpruned scope).mapfiles = ∅ := by
  change (processSections (hp.input scope) {}).mapfiles = ∅
  unfold processSections
  refine List.foldlRecOn (motive := fun b : Builder => b.mapfiles = ∅) _ _ rfl ?_
  intro b hb entry _
  unfold processSection
  simp only [changesOf_input]
  split
  · split
    · exact hb
    · simpa [compileSection, input] using hb
  · exact hb

theorem keyed_unpruned_heal (scope : List String) :
    OrdMap.Keyed Mapfile.key (hp.unpruned scope).heal := by
  change OrdMap.Keyed Mapfile.key (processSections (hp.input scope) {}).heal
  have hheal : ∀ (sn : String) (sec : MtaConfigSection) (compared : Bool) (heal : StrMap Mapfile),
      OrdMap.Keyed Mapfile.key heal →
        OrdMap.Keyed Mapfile.key (healMapfiles sn sec compared heal) := by
    intro sn sec compared heal hkeyed
    unfold healMapfiles
    split
    · refine List.foldlRecOn _ _ hkeyed ?_
      intro heal hkeyed entry _
      split
      · exact hkeyed.upsert rfl fun _ => rfl
      · exact hkeyed
    · exact hkeyed
  unfold processSections
  refine List.foldlRecOn (motive := fun b : Builder => OrdMap.Keyed Mapfile.key b.heal) _ _
    (OrdMap.keyed_empty _) ?_
  intro b hb entry _
  unfold processSection
  simp only
  split
  · split
    · exact hheal _ _ _ _ hb
    · exact hheal _ _ _ _ hb
  · exact hb

theorem keyed_unpruned (scope : List String) : (hp.unpruned scope).Keyed := by
  have hsections := keyed_processSections (hp.input scope)
  exact ⟨hsections.rewrites, hsections.postconf, hsections.postconfd, hsections.ldap,
    keyed_trackServices _ hsections.restarts, hsections.deferred⟩

theorem computeOrFail_eq_ok {input : Input} {pl : Plan} (hok : computeOrFail input = .ok pl) :
    compute input = some pl := by
  unfold computeOrFail at hok
  cases hcompute : compute input with
  | none => simp [hcompute] at hok
  | some found =>
    simp only [hcompute, Except.ok.injEq] at hok
    rw [hok]

/-- **How a plan comes about**: both plans are computed for one scope, the second with
what the host was observed to be and some text for the proxy. -/
theorem planHost_eq_ok {requested : List String} {cand pl : Plan}
    (hok : hp.planHost requested = .ok (cand, pl)) :
    ∃ scope host proxygen, compute (hp.input scope) = some cand ∧
      hp.observeHost cand = .ok host ∧
      compute { hp.input scope with host := some { host with proxygen } } = some pl := by
  unfold planHost at hok
  obtain ⟨scope, -, hok⟩ := bind_eq_ok hok
  obtain ⟨-, -, hok⟩ := bind_eq_ok hok
  obtain ⟨cand', hcand, hok⟩ := bind_eq_ok hok
  obtain ⟨host, hhost, hok⟩ := bind_eq_ok hok
  obtain ⟨pruned, hpruned, hok⟩ := bind_eq_ok hok
  cases hrequest : cand'.proxygen with
  | none =>
    simp only [hrequest, pure, Except.pure, Except.ok.injEq, Prod.mk.injEq] at hok
    obtain ⟨rfl, rfl⟩ := hok
    exact ⟨scope, host, host.proxygen, computeOrFail_eq_ok hcand, hhost,
      computeOrFail_eq_ok hpruned⟩
  | some request =>
    simp only [hrequest] at hok
    obtain ⟨pl', hpl, hok⟩ := bind_eq_ok hok
    simp only [pure, Except.pure, Except.ok.injEq, Prod.mk.injEq] at hok
    obtain ⟨rfl, rfl⟩ := hok
    exact ⟨scope, host, _, computeOrFail_eq_ok hcand, hhost, computeOrFail_eq_ok hpl⟩

theorem observeHost_eq_ok {cand : Plan} {host : Host} (hok : hp.observeHost cand = .ok host) :
    observeAll Mapfile.key (fun m => .ok (hp.mapfileDrift m)) (cand.heal ++ cand.mapfiles) ∅ =
        .ok host.mapfiles ∧
      observeAll Rewrite.source hp.rewriteDrift cand.rewrites ∅ = .ok host.rewrites ∧
      observeAll Directive.key hp.postconfDrift cand.postconf ∅ = .ok host.postconf ∧
      observeAll Directive.key hp.postconfdDrift cand.postconfd ∅ = .ok host.postconfd := by
  unfold observeHost at hok
  obtain ⟨mapfiles, hmapfiles, hok⟩ := bind_eq_ok hok
  obtain ⟨rewrites, hrewrites, hok⟩ := bind_eq_ok hok
  obtain ⟨postconf, hpostconf, hok⟩ := bind_eq_ok hok
  obtain ⟨postconfd, hpostconfd, hok⟩ := bind_eq_ok hok
  obtain ⟨ldap, -, hok⟩ := bind_eq_ok hok
  simp only [pure, Except.pure, Except.ok.injEq] at hok
  subst hok
  exact ⟨hmapfiles, hrewrites, hpostconf, hpostconfd⟩

theorem exists_drift_keptIn_iff {T : Type} {key : T → String} {reasons : T → List Reason}
    {mapReasons : (List Reason → List Reason) → T → T} (href : LawfulRef key reasons mapReasons)
    {drift : T → Except PlanHostError String} {map : StrMap T} (hmap : OrdMap.Keyed key map)
    {out : StrMap String} (hout : observeAll key drift map.valuesList ∅ = .ok out) {it : T}
    (hit : it ∈ map.valuesList) :
    ∃ text, drift it = .ok text ∧
      (KeptIn mapReasons (OrdMap.valuesList (keepDrifted mapReasons (driftOf out) map)) it ↔
        text ≠ "") := by
  obtain ⟨text, hok, hin⟩ := (observeAll_spec (OrdMap.nodup_map_valuesList hmap) hout).1 it hit
  exact ⟨text, hok, hin (by simp) ▸ keptIn_keepDrifted_iff href hmap hit⟩

section Plans

variable {scope : List String} {cand pl : Plan} {host : Host}
  (hcand : compute (hp.input scope) = some cand)
  (hpl : compute { hp.input scope with host := some host } = some pl)

include hcand in
theorem candidate_heal :
    cand.heal = (hp.unpruned scope).heal.valuesList ∧ cand.mapfiles = [] := by
  rw [hp.candidate_eq hcand]
  have hnone : (hp.unpruned scope).mapfiles = ∅ := hp.unpruned_mapfiles scope
  have hall : ((hp.unpruned scope).heal.filter fun key _ =>
      !(hp.unpruned scope).mapfiles.contains ⟨key, false⟩) = (hp.unpruned scope).heal := by
    apply Std.ExtTreeMap.ext_getElem?
    intro key
    rw [Std.ExtTreeMap.getElem?_filter', hnone]
    cases (hp.unpruned scope).heal[key]? <;> simp
  constructor
  · change OrdMap.valuesList ((hp.unpruned scope).heal.filter _) = _
    rw [hall]
  · change (hp.unpruned scope).mapfiles.valuesList = []
    rw [hnone]
    rfl

include hpl in
theorem pruned_heal : pl.heal = [] := by
  rw [hp.pruned_eq hpl]
  have hempty : ((∅ : StrMap Mapfile).filter fun key _ =>
      !(pruneToHost (hp.unpruned scope) (some host)).mapfiles.contains ⟨key, false⟩) = ∅ := by
    apply Std.ExtTreeMap.ext_getElem?
    intro key
    simp
  exact (congrArg OrdMap.valuesList hempty).trans rfl

include hpl in
theorem mem_pruned_mapfiles_iff (m : Mapfile) :
    m ∈ pl.mapfiles ↔ m ∈ OrdMap.valuesList
      (keepDrifted Mapfile.mapReasons (driftOf host.mapfiles) (hp.unpruned scope).heal) := by
  rw [hp.pruned_eq hpl, ← mem_pruned_mapfiles, ← hp.unpruned_mapfiles scope]
  rfl

include hpl in
/-- **A restart of the plan** has a section that owns an action of the plan. -/
theorem pruned_restart {r : Restart} (hr : r ∈ pl.restarts) :
    (∃ sn ∈ r.sections, pl.Owns sn) ∧
      KeptIn Restart.mapReasons (finish (hp.input scope) (hp.unpruned scope)).restarts r := by
  have hmapfiles := hp.mem_pruned_mapfiles_iff hpl
  rw [hp.pruned_eq hpl] at hr
  obtain ⟨kept, hkept, rfl⟩ := List.mem_map.mp hr
  obtain ⟨name, hname⟩ := (OrdMap.mem_valuesList_iff _ _).mp hkept
  change (pruneRestarts _ (hp.unpruned scope).restarts)[name]? = some kept at hname
  rw [pruneRestarts, Std.ExtTreeMap.getElem?_filterMap', Option.bind_eq_some_iff] at hname
  obtain ⟨found, hfound, hif⟩ := hname
  split at hif
  · rename_i htouched
    rw [Option.some.injEq] at hif
    subst hif
    constructor
    · obtain ⟨sn, hsn, htouched⟩ := List.any_eq_true.mp htouched
      refine ⟨sn, hsn, ?_⟩
      simp only [decide_eq_true_eq, List.mem_append, healTouched, List.mem_flatMap] at htouched
      unfold Plan.Owns
      rw [hp.pruned_eq hpl] at hmapfiles ⊢
      rcases htouched with
        ((((⟨m, hm, hin⟩ | ⟨m, hm, hin⟩) | ⟨r, hr, hin⟩) | hproxy) | ⟨p, hp', hin⟩) | ⟨p, hp', hin⟩
      · exact Or.inl ⟨m, (hmapfiles m).mpr hm, hin⟩
      · exact Or.inl ⟨m, hm, hin⟩
      · exact Or.inr (Or.inl ⟨r, hr, hin⟩)
      · refine Or.inr (Or.inr (Or.inl ?_))
        change ∃ p, ((hp.unpruned scope).proxygen.bind fun p =>
          (driftReasons host.proxygen).map fun reasons =>
            p.mapReasons fun _ => reasons) = some p ∧ _
        cases hreq : ((hp.unpruned scope).proxygen.bind fun p =>
            (driftReasons host.proxygen).map fun reasons => p.mapReasons fun _ => reasons) with
        | none => simp [hreq] at hproxy
        | some p => exact ⟨p, rfl, by simpa [hreq] using hproxy⟩
      · exact Or.inr (Or.inr (Or.inr (Or.inl ⟨p, hp', hin⟩)))
      · exact Or.inr (Or.inr (Or.inr (Or.inr ⟨p, hp', hin⟩)))
    · refine ⟨found.classify _, List.mem_map_of_mem ?_, rfl⟩
      exact (OrdMap.mem_valuesList_iff _ _).mpr ⟨name, hfound⟩
  · simp at hif

include hcand hpl in
theorem pruned_within : pl.Within cand := by
  obtain ⟨hheal, hmapfiles⟩ := hp.candidate_heal hcand
  refine ⟨?_, ?_, ?_, ?_, ?_, ?_, ?_, ?_, ?_⟩
  · rw [hp.pruned_heal hpl]
    simp
  · intro m hm
    rw [hheal, hmapfiles, List.append_nil]
    exact keptIn_of_mem_keepDrifted mapfileRef ((hp.mem_pruned_mapfiles_iff hpl m).mp hm)
  all_goals rw [hp.pruned_eq hpl]
  · rw [hp.candidate_eq hcand]
    exact fun r hr => keptIn_of_mem_keepDrifted rewriteRef hr
  · rw [hp.candidate_eq hcand]
    exact fun p hp' => keptIn_of_mem_keepDrifted directiveRef hp'
  · rw [hp.candidate_eq hcand]
    exact fun p hp' => keptIn_of_mem_keepDrifted directiveRef hp'
  · rw [hp.candidate_eq hcand]
    exact fun p hp' => keptIn_of_mem_keepDrifted directiveRef hp'
  · rw [hp.candidate_eq hcand]
    intro p hp'
    obtain ⟨request, hrequest, hkept⟩ := Option.bind_eq_some_iff.mp hp'
    obtain ⟨reasons, -, rfl⟩ := Option.map_eq_some_iff.mp hkept
    exact ⟨request, Option.mem_toList.mpr hrequest, rfl⟩
  · intro r hr
    rw [← hp.pruned_eq hpl] at hr
    rw [hp.candidate_eq hcand]
    exact (hp.pruned_restart hpl hr).2
  · rfl

end Plans

end HostPlanner

/-- A section with two parameters, one of which comes from a file, a template and a
mapped file. -/
def bannerSection : MtaConfigSection where
  requiredVars := Std.ExtTreeMap.ofList [("zimbraSSLDHParam", .mapfile)] compare
  rewrites := Std.ExtTreeMap.ofList [("banner.in", ⟨"conf/banner", "0640"⟩)] compare
  restarts := Std.ExtTreeMap.ofList [("mta", true)] compare
  postconf := Std.ExtTreeMap.ofList
    [("myhostname", "mx"), ("smtpd_banner", "FILE /conf/banner.txt")] compare

/-- A host on which the file of the parameter is missing and the target of the template
is as it should be, but cannot be read. -/
def bannerHost : HostPlanner where
  snap := { services := Std.ExtTreeMap.ofList [("mta", "TRUE")] compare }
  conf := { sections := Std.ExtTreeMap.ofList [("mta", bannerSection)] compare }
  fs := noFiles
  baseDir := "/opt/zextras"
  file := fun path =>
    if path = "/opt/zextras/conf/banner" then
      some { content := [104, 105, 10], perm := 0o640, readable := false }
    else none
  template := fun _ => { lines := ["hi"] }
  mta := { builtin := fun _ => some "" }
  quote := id
  errorText := id

def bannerPlans : Plan × Plan :=
  (bannerHost.planHost []).toOption.getD ({}, {})

/-- **What `PlanHost` promises holds** of every plan it gives. -/
theorem planHost_meets (hp : HostPlanner) (requested : List String) (cand pl : Plan)
    (hok : hp.planHost requested = .ok (cand, pl)) : PlanHostMeets hp cand pl := by
  obtain ⟨scope, host, proxygen, hcand, hhost, hpl⟩ := hp.planHost_eq_ok hok
  obtain ⟨hmapfiles, hrewrites, hpostconf, hpostconfd⟩ := hp.observeHost_eq_ok hhost
  have hkeyed := hp.keyed_unpruned scope
  refine ⟨hp.pruned_within hcand hpl, ?_, ?_, ?_, ?_, fun r hr => (hp.pruned_restart hpl hr).1⟩
  · rw [hp.candidate_eq hcand] at hrewrites ⊢
    rw [hp.pruned_eq hpl]
    intro r hr
    obtain ⟨text, hdrift, hkeptIn⟩ :=
      HostPlanner.exists_drift_keptIn_iff rewriteRef hkeyed.rewrites hrewrites hr
    exact hkeptIn.trans (hp.rewriteDrift_ne_empty_iff hdrift)
  · rw [hp.candidate_eq hcand] at hpostconf ⊢
    rw [hp.pruned_eq hpl]
    intro p hp'
    obtain ⟨text, hdrift, hkeptIn⟩ :=
      HostPlanner.exists_drift_keptIn_iff directiveRef hkeyed.postconf hpostconf hp'
    exact hkeptIn.trans (hp.postconfDrift_ne_empty_iff hdrift)
  · rw [hp.candidate_eq hcand] at hpostconfd ⊢
    rw [hp.pruned_eq hpl]
    intro p hp'
    obtain ⟨text, hdrift, hkeptIn⟩ :=
      HostPlanner.exists_drift_keptIn_iff directiveRef hkeyed.postconfd hpostconfd hp'
    exact hkeptIn.trans (hp.postconfdDrift_ne_empty_iff hdrift)
  · obtain ⟨hheal, hnone⟩ := hp.candidate_heal hcand
    rw [hheal, hnone, List.append_nil] at hmapfiles ⊢
    intro m hm hlocal hseen
    obtain ⟨text, hdrift, hkeptIn⟩ :=
      HostPlanner.exists_drift_keptIn_iff mapfileRef (hp.keyed_unpruned_heal scope) hmapfiles hm
    rw [Except.ok.injEq] at hdrift
    have hsame : KeptIn Mapfile.mapReasons (pl.heal ++ pl.mapfiles) m ↔
        KeptIn Mapfile.mapReasons (OrdMap.valuesList (keepDrifted Mapfile.mapReasons
          (driftOf host.mapfiles) (hp.unpruned scope).heal)) m := by
      simp only [KeptIn, hp.pruned_heal hpl, List.nil_append, hp.mem_pruned_mapfiles_iff hpl]
    rw [hsame, hkeptIn, ← hdrift]
    exact hp.mapfileDrift_ne_empty_iff hlocal hseen

/-- The plan for the host lists both parameters and the template, and the restart they
lead to. -/
theorem planHost_meets_banner :
    (bannerPlans.2.postconf.map Directive.key = ["myhostname", "smtpd_banner"] ∧
        bannerPlans.2.rewrites.map Rewrite.source = ["banner.in"] ∧
        bannerPlans.2.mapfiles = [] ∧
        bannerPlans.2.restarts.map Restart.service = ["mta"]) ∧
      PlanHostMeets bannerHost bannerPlans.1 bannerPlans.2 := by
  have hok : bannerHost.planHost [] = .ok bannerPlans := by
    have hsome : (bannerHost.planHost []).toOption.isSome = true := by decide +kernel
    unfold bannerPlans
    cases hplan : bannerHost.planHost [] with
    | error err => simp [hplan, Except.toOption] at hsome
    | ok plans => rfl
  exact ⟨by decide +kernel, planHost_meets bannerHost [] bannerPlans.1 bannerPlans.2 hok⟩

/-- The parameter whose file is missing and the template whose target cannot be read
are listed, although neither action would change anything. -/
theorem planHost_lists_unresolved_and_unreadable :
    (bannerHost.planHost []).toOption = some bannerPlans ∧
      (∃ p ∈ bannerPlans.1.postconf, KeptIn Directive.mapReasons bannerPlans.2.postconf p ∧
        ¬ bannerHost.PostconfChanges p) ∧
      ∃ r ∈ bannerPlans.1.rewrites, KeptIn Rewrite.mapReasons bannerPlans.2.rewrites r ∧
        ¬ bannerHost.RewriteChanges r := by
  unfold KeptIn HostPlanner.PostconfChanges HostPlanner.RewriteChanges
  decide +kernel

end Configd
