import Kannel.Gwlib.CfgRender
import Kannel.Lib.Avoids

/-!
# When a configuration is read as it was written

A variable that mentions `include` is never stored; a group stored alone replaces the one
before; a comment that swallows a line leaves too few variables.
-/

namespace Kannel
open List
variable {hooks : CfgHooks} {env : CfgEnv}

def CfgGroup.Clean (grp : CfgGroup) : Prop :=
  ∀ varname value, dictGet grp.vars varname = some value →
    ¬ ascii "include" <:+: varname ∧ ¬ ascii "include" <:+: value

structure Cfg.Clean (hooks : CfgHooks) (cfg : Cfg) : Prop where
  sorted : cfg.Sorted hooks
  groups : ∀ name, ∀ grp ∈ cfg.groupsNamed name, grp.Clean

theorem createGroup_clean : createGroup.Clean := by
  intro varname value h
  cases h

variable {grp : CfgGroup}

theorem CfgGroup.Clean.cfgSet (h : grp.Clean) {name value : Octstr}
    (hname : ¬ ascii "include" <:+: name) (hvalue : ¬ ascii "include" <:+: value) :
    (cfgSet grp name value).Clean := by
  intro varname value' hget
  rw [Kannel.cfgSet, dictGet_dictPut] at hget
  split_ifs at hget with heq
  · obtain rfl := Option.some.inj hget
    exact ⟨heq ▸ hname, hvalue⟩
  · exact h varname value' hget

theorem cfgCreate_clean (filename : Octstr) : (cfgCreate filename).Clean hooks := by
  refine ⟨sorted_cfgCreate hooks filename, fun name grp hgrp => ?_⟩
  cases hgrp

variable {cfg : Cfg}

theorem addGroup_some {cfg' : Cfg} (h : addGroup hooks env cfg grp = some cfg') :
    ∃ name, cfg' = storeGroup hooks cfg name { grp with name := some name } := by
  unfold addGroup at h
  split at h
  · cases h
  · rename_i name hname
    obtain ⟨-, h⟩ := Option.ite_none_right_eq_some.mp h
    exact ⟨name, (Option.some.inj h).symm⟩

theorem Cfg.Clean.addGroup {cfg' : Cfg} (hcfg : cfg.Clean hooks) (hgrp : grp.Clean)
    (h : addGroup hooks env cfg grp = some cfg') : cfg'.Clean hooks := by
  obtain ⟨name, rfl⟩ := addGroup_some h
  refine ⟨hcfg.sorted.storeGroup _ _, fun other grp' hmem => ?_⟩
  rw [groupsNamed_storeGroup hcfg.sorted] at hmem
  split_ifs at hmem
  · obtain rfl := mem_singleton.mp hmem
    exact hgrp
  · rcases mem_append.mp hmem with hmem | hmem
    · exact hcfg.groups other grp' hmem
    · obtain rfl := mem_singleton.mp hmem
      exact hgrp
  · exact hcfg.groups other grp' hmem

structure Reading.Clean (hooks : CfgHooks) (s : Reading) : Prop where
  cfg : s.cfg.Clean hooks
  grp : ∀ grp, s.grp = some grp → grp.Clean

variable {s s' : Reading}

theorem Reading.Clean.endGroup (hs : s.Clean hooks) (h : endGroup hooks env s = .ok s') :
    s'.Clean hooks := by
  unfold Kannel.endGroup at h
  cases hgrp : s.grp with
  | none =>
    rw [hgrp] at h
    cases h
    exact hs
  | some grp =>
    rw [hgrp] at h
    dsimp only at h
    cases hadd : addGroup hooks env s.cfg grp with
    | none =>
      rw [hadd] at h
      cases h
    | some cfg =>
      rw [hadd] at h
      cases h
      exact ⟨hs.cfg.addGroup (hs.grp grp hgrp) hadd, fun grp' hnone => by cases hnone⟩

theorem includeFiles_groups {files : List Octstr} (h : includeFiles env files s = .ok s') :
    s'.grp = s.grp ∧ s'.cfg = s.cfg := by
  induction files generalizing s with
  | nil =>
    cases h
    exact ⟨rfl, rfl⟩
  | cons file files ih =>
    unfold includeFiles at h
    split_ifs at h
    · exact ih h
    · split at h
      · cases h
      · rename_i expand hexpand
        exact ih (s := { s with lines := expand ++ s.lines, stack := file :: s.stack }) h

theorem Reading.Clean.setVariable (hs : s.Clean hooks) {line : Octstr}
    (hline : ¬ ascii "include" <:+: line) (equals : Nat) :
    (setVariable s line equals).Clean hooks := by
  refine ⟨hs.cfg, fun grp hsome => ?_⟩
  obtain rfl := Option.some.inj hsome
  refine CfgGroup.Clean.cfgSet ?_ ?_ ?_
  · cases hgrp : s.grp with
    | none => exact createGroup_clean
    | some grp => exact hs.grp grp hgrp
  · intro hname
    exact hline ((hname.trans (octstrStripBlanks_within _)).trans (List.take_prefix _ _).isInfix)
  · intro hvalue
    exact hline ((include_parseCfgValue hvalue).trans (drop_suffix _ _).isInfix)

theorem Reading.Clean.readLine {loc : Octstr} (hs : s.Clean hooks)
    (h : readLine hooks env s loc = .ok s') : s'.Clean hooks := by
  unfold Kannel.readLine at h
  dsimp only at h
  split_ifs at h with hblank hcomment
  · exact hs.endGroup h
  · cases h
    exact hs
  · split at h
    · cases h
    · obtain ⟨files, -, h⟩ := bind_eq_ok_iff.mp h
      obtain ⟨hgrp, hcfg⟩ := includeFiles_groups h
      exact ⟨hcfg ▸ hs.cfg, fun grp hsome => hs.grp grp (hgrp ▸ hsome)⟩
  · rename_i hinclude
    have hline : ¬ ascii "include" <:+: octstrStripBlanks loc := fun hinfix =>
      hinclude ((octstrSearch_isSome_iff include_letters.2.2.2.2).mpr hinfix)
    split at h
    · cases h
    · cases h
      exact hs.setVariable hline _

variable {rounds : Nat}

theorem cfgReadLoop_clean (hs : s.Clean hooks)
    (h : cfgReadLoop hooks env rounds s = some (.ok cfg)) :
    cfg.Clean hooks := by
  induction rounds generalizing s with
  | zero => cases h
  | succ rounds ih =>
    unfold cfgReadLoop at h
    split at h
    · obtain ⟨s', hend, rfl⟩ := map_eq_ok_iff.mp (Option.some.inj h)
      exact (hs.endGroup hend).cfg
    · rename_i loc lines hlines
      have hrest : ({ s with lines := lines } : Reading).Clean hooks := ⟨hs.cfg, hs.grp⟩
      split at h
      · cases h
      · rename_i s' hline
        exact ih (hrest.readLine hline) h

variable {filename : Octstr}

theorem cfgRead_clean (h : cfgRead hooks env filename rounds = some (.ok cfg)) :
    cfg.Clean hooks := by
  unfold cfgRead at h
  split at h
  · cases h
  · exact cfgReadLoop_clean ⟨cfgCreate_clean filename, fun grp hsome => by cases hsome⟩ h

def Cfg.Has (env : CfgEnv) (cfg : Cfg) (groups : List Settings) : Prop :=
  ∀ name, ∃ sub, sub.Sublist (cfg.groupsNamed name) ∧
    Forall₂ CfgGroup.Holds sub (named env name groups)

structure Settings.Proper (env : CfgEnv) (settings : Settings) : Prop where
  once : (settings.map Prod.fst).Nodup
  named : ∃ name, groupNameOf env settings = some name

def variableCount (groups : List Settings) : Nat := (groups.map List.length).sum

def Cfg.AtMost (env : CfgEnv) (cfg : Cfg) (n : Nat) : Prop :=
  ∀ groups : List Settings, (∀ settings ∈ groups, settings.Proper env) → cfg.Has env groups →
    variableCount groups ≤ n

theorem Cfg.Yields.has {groups : List Settings} (h : cfg.Yields env groups) : cfg.Has env groups :=
  fun name => ⟨_, List.Sublist.refl _, h name⟩

theorem mem_named {name : Octstr} {groups : List Settings} {settings : Settings} :
    settings ∈ named env name groups ↔
      settings ∈ groups ∧ groupNameOf env settings = some name := by
  rw [named, mem_filter, decide_eq_true_iff]

theorem named_append (name : Octstr) (front back : List Settings) :
    named env name (front ++ back) = named env name front ++ named env name back :=
  filter_append ..

theorem cfgCreate_atMost (filename : Octstr) : (cfgCreate filename).AtMost env 0 := by
  intro groups hproper hhas
  cases groups with
  | nil => exact le_rfl
  | cons settings groups =>
    obtain ⟨name, hname⟩ := (hproper settings mem_cons_self).named
    obtain ⟨sub, hsub, hholds⟩ := hhas name
    obtain rfl := sublist_nil.mp hsub
    have hmem : settings ∈ named env name (settings :: groups) :=
      mem_named.mpr ⟨mem_cons_self, hname⟩
    rw [forall₂_nil_left_iff.mp hholds] at hmem
    cases hmem

theorem CfgGroup.Holds.length_eq {settings : Settings} (h : grp.Holds settings)
    (honce : (settings.map Prod.fst).Nodup) : settings.length = dictKeyCount grp.vars := by
  have hmem : ∀ varname, varname ∈ settings.map Prod.fst ↔ varname ∈ dictKeys grp.vars := by
    intro varname
    rw [mem_dictKeys, h varname, lookup_isSome_iff]
  have hperm := (perm_ext_iff_of_nodup honce (nodup_dictKeys grp.vars)).mpr hmem
  rw [dictKeyCount_eq, ← hperm.length_eq, length_map]

theorem named_last {name : Octstr} {groups initial : List Settings} {last : Settings}
    (h : named env name groups = initial ++ [last]) :
    ∃ front back, groups = front ++ last :: back ∧ groupNameOf env last = some name ∧
      named env name (front ++ back) = initial := by
  obtain ⟨first, second, rfl, hfirst, hsecond⟩ := filter_eq_append_iff.mp h
  obtain ⟨skipped, back, rfl, hskipped, hlast, hback⟩ := filter_eq_cons_iff.mp hsecond
  refine ⟨first ++ skipped, back, (append_assoc ..).symm, of_decide_eq_true hlast, ?_⟩
  have hnone : named env name skipped = [] := filter_eq_nil_iff.mpr hskipped
  have hrest : named env name back = [] := hback
  rw [named_append, named_append, hnone, hrest, append_nil, append_nil]
  exact hfirst

variable {n : Nat}

theorem Cfg.AtMost.storeGroup (h : cfg.AtMost env n) (hsorted : cfg.Sorted hooks) (name : Octstr)
    (grp : CfgGroup) : (storeGroup hooks cfg name grp).AtMost env (n + dictKeyCount grp.vars) := by
  intro groups hproper hhas
  obtain ⟨sub, hsub, hholds⟩ := hhas name
  rw [groupsNamed_storeGroup hsorted, if_pos rfl] at hsub
  have hold : (if hooks.isSingleGroup name then [] else cfg.groupsNamed name).Sublist
      (cfg.groupsNamed name) := by
    split_ifs
    · exact nil_sublist _
    · exact List.Sublist.refl _
  have hothers : ∀ other ≠ name, ∃ sub, sub.Sublist (cfg.groupsNamed other) ∧
      Forall₂ CfgGroup.Holds sub (named env other groups) := by
    intro other hother
    obtain ⟨sub, hsub, hholds⟩ := hhas other
    rw [groupsNamed_storeGroup hsorted, if_neg hother] at hsub
    exact ⟨sub, hsub, hholds⟩
  obtain ⟨before, last, rfl, hbefore, hlast⟩ := sublist_append_iff.mp hsub
  rcases sublist_singleton.mp hlast with rfl | rfl
  · -- The group is none of those that are looked for.
    rw [append_nil] at hholds
    refine le_trans (h groups hproper fun other => ?_) (Nat.le_add_right _ _)
    by_cases hother : other = name
    · exact hother ▸ ⟨before, hbefore.trans hold, hholds⟩
    · exact hothers other hother
  · -- It is the last one of its name, and the others were there before.
    have hinitial := forall₂_take before.length hholds
    have hfinal := forall₂_drop before.length hholds
    rw [take_left] at hinitial
    rw [drop_left] at hfinal
    obtain ⟨settings, final, hsettings, hnil, hdrop⟩ := forall₂_cons_left_iff.mp hfinal
    obtain rfl := forall₂_nil_left_iff.mp hnil
    have hsplit := (take_append_drop before.length (named env name groups)).symm
    rw [hdrop] at hsplit
    obtain ⟨front, back, rfl, hname, hnamed⟩ := named_last hsplit
    have hrest : cfg.Has env (front ++ back) := by
      intro other
      by_cases hother : other = name
      · rw [hother, hnamed]
        exact ⟨before, hbefore.trans hold, hinitial⟩
      · have hskip : named env other (front ++ settings :: back) =
            named env other (front ++ back) := by
          have hne : ¬ groupNameOf env settings = some other := fun heq =>
            hother (Option.some.inj (heq.symm.trans hname))
          rw [named_append, named_append, named, named, named,
            filter_cons_of_neg (by rwa [decide_eq_true_iff])]
        exact hskip ▸ hothers other hother
    have hcount := h (front ++ back) (fun g hg => hproper g (by
      rcases mem_append.mp hg with hg | hg
      · exact mem_append_left _ hg
      · exact mem_append_right _ (mem_cons_of_mem _ hg))) hrest
    have hlength := hsettings.length_eq (hproper settings (by simp)).once
    simp only [variableCount, map_append, map_cons, sum_append, sum_cons]
      at hcount ⊢
    omega

def freshCount : (names : List Octstr) → List CfgLine → Nat
  | _, [] => 0
  | names, .comment _ :: lines => freshCount names lines
  | names, .setting name _ :: lines =>
    (if name ∈ names then 0 else 1) + freshCount (name :: names) lines
  | _, .separator :: lines => freshCount [] lines

def currentCount (st : Progress) : Nat :=
  match st.1 with
  | none => 0
  | some grp => dictKeyCount grp.vars

structure Counted (hooks : CfgHooks) (env : CfgEnv) (names : List Octstr) (n : Nat)
    (st : Progress) : Prop where
  sorted : st.2.Sorted hooks
  names : ∀ varname, varname ∈ names ↔ (currentVar st varname).isSome = true
  bound : ∃ m, st.2.AtMost env m ∧ m + currentCount st ≤ n

theorem dictKeyCount_dictPut {α : Type} {size : Nat} [NeZero size] (dict : Dict α size)
    (key : Octstr) (value : α) :
    dictKeyCount (dictPut dict key (some value)) =
      dictKeyCount dict + if (dictGet dict key).isSome then 0 else 1 := by
  rw [dictKeyCount_eq, dictKeyCount_eq]
  have hmem : ∀ key', key' ∈ dictKeys (dictPut dict key (some value)) ↔
      key' = key ∨ key' ∈ dictKeys dict := by
    intro key'
    rw [mem_dictKeys, mem_dictKeys, dictGet_dictPut]
    split_ifs with h
    · simp [h]
    · simp [h]
  split_ifs with h
  · refine ((perm_ext_iff_of_nodup (nodup_dictKeys _) (nodup_dictKeys _)).mpr fun key' => ?_)
      |>.length_eq
    rw [hmem]
    refine or_iff_right_of_imp ?_
    rintro rfl
    exact (mem_dictKeys _ _).mpr h
  · have hnot : key ∉ dictKeys dict := fun hkey => h ((mem_dictKeys _ _).mp hkey)
    have hperm : (dictKeys (dictPut dict key (some value))).Perm (key :: dictKeys dict) := by
      refine (perm_ext_iff_of_nodup (nodup_dictKeys _)
        (nodup_cons.mpr ⟨hnot, nodup_dictKeys _⟩)).mpr fun key' => ?_
      rw [hmem, mem_cons]
    rw [hperm.length_eq, length_cons]

theorem currentCount_putSetting (st : Progress) (name value : Octstr) :
    currentCount (putSetting st name value) =
      currentCount st + if (currentVar st name).isSome then 0 else 1 := by
  show dictKeyCount (dictPut _ name (some value)) = _
  rw [dictKeyCount_dictPut]
  cases hgrp : st.1 with
  | none =>
    rw [currentCount, currentVar, hgrp, Option.getD_none, createGroup, dictKeyCount_eq]
    rfl
  | some grp =>
    rw [currentCount, currentVar, hgrp]
    rfl

variable {names : List Octstr} {st : Progress}

theorem Counted.setting (h : Counted hooks env names n st) (name value : Octstr) :
    Counted hooks env (name :: names) (n + if name ∈ names then 0 else 1)
      (putSetting st name value) := by
  obtain ⟨m, hm, hbound⟩ := h.bound
  refine ⟨h.sorted, fun varname => ?_, m, hm, ?_⟩
  · rw [currentVar_putSetting, mem_cons, h.names]
    split_ifs with heq
    · simp [heq]
    · simp [heq]
  · rw [currentCount_putSetting, if_congr (h.names name) rfl rfl]
    omega

theorem Counted.closeGroup {st' : Progress} (h : Counted hooks env names n st)
    (hclose : closeGroup hooks env st = .ok st') : Counted hooks env [] n st' := by
  obtain ⟨m, hm, hbound⟩ := h.bound
  obtain ⟨grp, cfg⟩ := st
  unfold Kannel.closeGroup at hclose
  cases grp with
  | none =>
    cases hclose
    exact ⟨h.sorted, fun varname => by simp [currentVar], m, hm, hbound⟩
  | some grp =>
    dsimp only at hclose
    cases hadd : addGroup hooks env cfg grp with
    | none =>
      rw [hadd] at hclose
      cases hclose
    | some cfg' =>
      rw [hadd] at hclose
      cases hclose
      obtain ⟨name, rfl⟩ := addGroup_some hadd
      exact ⟨h.sorted.storeGroup _ _, fun varname => by simp [currentVar], _,
        hm.storeGroup h.sorted name _, hbound⟩

variable {lines : List CfgLine}

theorem Counted.foldlM {st' : Progress} (h : Counted hooks env names n st)
    (hread : (lines.foldlM (lineEffect hooks env) st >>= Kannel.closeGroup hooks env) = .ok st') :
    ∃ m, st'.2.AtMost env m ∧ m ≤ n + freshCount names lines := by
  induction lines generalizing names n st with
  | nil =>
    obtain ⟨m, hm, hbound⟩ := (h.closeGroup hread).bound
    exact ⟨m, hm, by omega⟩
  | cons line lines ih =>
    rw [foldlM_cons, bind_assoc] at hread
    cases line with
    | comment text => exact ih h hread
    | setting name value =>
      obtain ⟨m, hm, hbound⟩ := ih (h.setting name value) hread
      refine ⟨m, hm, ?_⟩
      rw [freshCount]
      omega
    | separator =>
      obtain ⟨st₁, hclose, hread⟩ := bind_eq_ok_iff.mp hread
      exact ih (h.closeGroup hclose) hread

theorem readLines_atMost (h : readLines hooks env filename lines = .ok cfg) :
    ∃ m, cfg.AtMost env m ∧ m ≤ freshCount [] lines := by
  unfold readLines at h
  obtain ⟨st, hread, rfl⟩ := map_eq_ok_iff.mp h
  have hcounted : Counted hooks env [] 0 (none, cfgCreate filename) :=
    ⟨sorted_cfgCreate hooks filename, fun varname => by simp [currentVar], 0,
      cfgCreate_atMost filename, le_rfl⟩
  obtain ⟨m, hm, hbound⟩ := hcounted.foldlM hread
  exact ⟨m, hm, by omega⟩

def settingsOf (lines : List CfgLine) : Settings := lines.filterMap CfgLine.setting?

theorem freshCount_lines (hinner : ∀ line ∈ lines, line ≠ .separator) (going : Bool)
    (names : List Octstr) :
    ∃ going' names' n, (∀ rest,
        freshCount names (kept going (lines ++ rest)) = n + freshCount names' (kept going' rest) ∧
        swallowed going (lines ++ rest) = swallowed going lines ++ swallowed going' rest) ∧
      n ≤ (settingsOf lines).length ∧ names ⊆ names' ∧
      (n = (settingsOf lines).length →
        (∀ line ∈ swallowed going lines, line.significant = false) ∧
        ∀ setting ∈ settingsOf lines, setting.1 ∉ names ∧ setting.1 ∈ names') := by
  induction lines generalizing going names with
  | nil =>
    refine ⟨going, names, 0, fun rest => ⟨(Nat.zero_add _).symm, rfl⟩, le_rfl,
      List.Subset.refl _, fun _ => ⟨fun line h => ?_, fun setting h => ?_⟩⟩
    · cases h
    · cases h
  | cons line lines ih =>
    have htail : ∀ l ∈ lines, l ≠ .separator := fun l hl => hinner l (mem_cons_of_mem _ hl)
    cases line with
    | separator => exact absurd rfl (hinner _ mem_cons_self)
    | comment text =>
      obtain ⟨going', names', n, hrest, hn, hsub, hfull⟩ :=
        ih htail (CfgLine.comment text).wraps names
      refine ⟨going', names', n, fun rest => ?_, hn, hsub, fun heq => ?_⟩
      · obtain ⟨hcount, hswallowed⟩ := hrest rest
        rw [cons_append, swallowed, hswallowed, swallowed]
        cases going with
        | false => exact ⟨hcount, rfl⟩
        | true => exact ⟨hcount, rfl⟩
      · obtain ⟨hinsignificant, hnames⟩ := hfull heq
        refine ⟨fun line hline => ?_, hnames⟩
        rcases mem_append.mp hline with hline | hline
        · split_ifs at hline
          · obtain rfl := mem_singleton.mp hline
            rfl
          · cases hline
        · exact hinsignificant line hline
    | setting name value =>
      have hlength : (settingsOf (.setting name value :: lines)).length =
        (settingsOf lines).length + 1 := rfl
      cases going with
      | true =>
        obtain ⟨going', names', n, hrest, hn, hsub, -⟩ := ih htail false names
        refine ⟨going', names', n, fun rest => ?_, by omega, hsub, fun heq => ?_⟩
        · obtain ⟨hcount, hswallowed⟩ := hrest rest
          exact ⟨hcount, congrArg (CfgLine.setting name value :: ·) hswallowed⟩
        · omega
      | false =>
        obtain ⟨going', names', n, hrest, hn, hsub, hfull⟩ := ih htail false (name :: names)
        refine ⟨going', names', (if name ∈ names then 0 else 1) + n, fun rest => ?_, ?_,
          fun k hk => hsub (mem_cons_of_mem _ hk), fun heq => ?_⟩
        · obtain ⟨hcount, hswallowed⟩ := hrest rest
          refine ⟨?_, hswallowed⟩
          have hkept : kept false (CfgLine.setting name value :: (lines ++ rest)) =
            .setting name value :: kept false (lines ++ rest) := rfl
          rw [cons_append, hkept, freshCount, hcount, Nat.add_assoc]
        · split_ifs <;> omega
        · have hnew : name ∉ names := by
            intro hmem
            rw [if_pos hmem] at heq
            omega
          rw [if_neg hnew] at heq
          obtain ⟨hinsignificant, hnames⟩ := hfull (by omega)
          refine ⟨hinsignificant, fun setting hsetting => ?_⟩
          rcases mem_cons.mp hsetting with rfl | hsetting
          · exact ⟨hnew, hsub mem_cons_self⟩
          · obtain ⟨hnot, hin⟩ := hnames setting hsetting
            exact ⟨fun hmem => hnot (mem_cons_of_mem _ hmem), hin⟩

variable {blocks : List CfgBlock}

theorem freshCount_bodyLines
    (hgroup : ∀ block ∈ blocks, ascii "group" ∈ block.settings.map Prod.fst) (going : Bool)
    (names : List Octstr) :
    freshCount names (kept going (bodyLines blocks)) ≤
        variableCount (blocks.map CfgBlock.settings) ∧
      (freshCount names (kept going (bodyLines blocks)) =
          variableCount (blocks.map CfgBlock.settings) →
        (∀ line ∈ swallowed going (bodyLines blocks), line.significant = false) ∧
        ∀ block ∈ blocks.head?, ∀ setting ∈ block.settings, setting.1 ∉ names) := by
  induction blocks using bodyLines.induct generalizing going names with
  | case1 =>
    refine ⟨le_rfl, fun _ => ⟨fun line h => ?_, fun block h => ?_⟩⟩
    · cases h
    · cases h
  | case2 block =>
    obtain ⟨going', names', n, hrest, hn, -, hfull⟩ := freshCount_lines block.inner going names
    obtain ⟨hcount, -⟩ := hrest []
    rw [append_nil] at hcount
    have hlines : freshCount names (kept going (bodyLines [block])) = n := hcount
    rw [hlines]
    refine ⟨hn, fun heq => ?_⟩
    obtain ⟨hinsignificant, hnames⟩ := hfull heq
    refine ⟨hinsignificant, fun block' hblock setting hsetting => ?_⟩
    obtain rfl := Option.some.inj hblock
    exact (hnames setting hsetting).1
  | case3 block next blocks ih =>
    obtain ⟨going', names', n, hrest, hn, -, hfull⟩ := freshCount_lines block.inner going names
    obtain ⟨hcount, hswallowed⟩ := hrest (.separator :: bodyLines (next :: blocks))
    have hnext : ∀ b ∈ next :: blocks, ascii "group" ∈ b.settings.map Prod.fst :=
      fun b hb => hgroup b (mem_cons_of_mem _ hb)
    have htotal : variableCount ((block :: next :: blocks).map CfgBlock.settings) =
      (settingsOf block.lines).length +
        variableCount ((next :: blocks).map CfgBlock.settings) := rfl
    rw [bodyLines, hswallowed]
    cases going' with
    | false =>
      have hkept : freshCount names' (kept false (.separator :: bodyLines (next :: blocks))) =
        freshCount [] (kept false (bodyLines (next :: blocks))) := rfl
      obtain ⟨hle, hall⟩ := ih hnext false []
      refine ⟨by omega, fun heq => ?_⟩
      obtain ⟨hinsignificant, hnames⟩ := hfull (by omega)
      refine ⟨fun line hline => ?_, fun block' hblock setting hsetting => ?_⟩
      · rcases mem_append.mp hline with hline | hline
        · exact hinsignificant line hline
        · exact (hall (by omega)).1 line hline
      · obtain rfl := Option.some.inj hblock
        exact (hnames setting hsetting).1
    | true =>
      -- The end of the group was swallowed: `group` is set twice.
      have hkept : freshCount names' (kept true (.separator :: bodyLines (next :: blocks))) =
        freshCount names' (kept false (bodyLines (next :: blocks))) := rfl
      obtain ⟨hle, hall⟩ := ih hnext false names'
      refine ⟨by omega, fun heq => ?_⟩
      obtain ⟨setting, hsetting, hfirst⟩ :=
        List.mem_map.mp (hgroup block mem_cons_self)
      obtain ⟨setting', hsetting', hsecond⟩ :=
        List.mem_map.mp (hnext next mem_cons_self)
      have hin := ((hfull (by omega)).2 setting hsetting).2
      have hnot := (hall (by omega)).2 next rfl setting' hsetting'
      rw [hfirst] at hin
      rw [hsecond] at hnot
      exact absurd hin hnot

section RoundTrip
variable {filename : Octstr} {text : CfgText}

theorem CfgBlock.Proper.settings {block : CfgBlock} (h : block.Proper hooks env) :
    block.settings.Proper env := by
  obtain ⟨value, hvalue⟩ := Option.isSome_iff_exists.mp ((lookup_isSome_iff _ _).mpr h.named)
  exact ⟨h.once, _, by rw [groupNameOf, hvalue]; rfl⟩

theorem CfgText.Proper.groups (h : text.Proper hooks env) :
    ∀ settings ∈ text.groups, settings.Proper env := by
  intro settings hsettings
  obtain ⟨block, hblock, rfl⟩ := List.mem_map.mp hsettings
  exact (h.blocks block hblock).settings

theorem mem_bodyLines {line : CfgLine} (h : line ∈ bodyLines blocks) :
    line = .separator ∨ ∃ block ∈ blocks, line ∈ block.lines := by
  induction blocks using bodyLines.induct with
  | case1 => cases h
  | case2 block => exact .inr ⟨block, mem_cons_self, h⟩
  | case3 block next blocks ih =>
    rcases mem_append.mp h with h | h
    · exact .inr ⟨block, mem_cons_self, h⟩
    · rcases mem_cons.mp h with h | h
      · exact .inl h
      · rcases ih h with h | ⟨b, hb, h⟩
        · exact .inl h
        · exact .inr ⟨b, mem_cons_of_mem _ hb, h⟩

theorem lookup_of_mem {settings : Settings} (honce : (settings.map Prod.fst).Nodup)
    {setting : Octstr × Octstr} (h : setting ∈ settings) :
    settings.lookup setting.1 = some setting.2 := by
  induction settings with
  | nil => cases h
  | cons first settings ih =>
    rw [map_cons, nodup_cons] at honce
    rw [lookup_cons_eq first.1 first.2]
    rcases mem_cons.mp h with rfl | h
    · rw [if_pos rfl]
    · have hne : setting.1 ≠ first.1 := fun heq =>
        honce.1 (heq ▸ List.mem_map_of_mem h)
      rw [if_neg hne]
      exact ih honce.2 h

theorem cfgRead_more {result : Except Failure Cfg}
    (h : cfgRead hooks env filename rounds = some result) (more : Nat) :
    cfgRead hooks env filename (rounds + more) = some result := by
  unfold cfgRead at h ⊢
  split at h
  · exact h
  · exact cfgReadLoop_more h more

theorem mem_lines (hproper : text.Proper hooks env) {line : CfgLine}
    (h : line ∈ bodyLines text.blocks ++ text.ending) :
    line = .separator ∨ (∃ comment, line = .comment comment ∧ 10 ∉ comment) ∨
      ∃ settings ∈ text.groups, ∃ setting ∈ settings,
        line = .setting setting.1 setting.2 ∧ isVariableName setting.1 = true ∧ 10 ∉ setting.2 := by
  rcases mem_append.mp h with h | h
  · rcases mem_bodyLines h with h | ⟨block, hblock, h⟩
    · exact .inl h
    · have hb := hproper.blocks block hblock
      cases line with
      | separator => exact .inl rfl
      | comment comment => exact .inr (.inl ⟨comment, rfl, hb.comments comment h⟩)
      | setting name value =>
        have hsetting : (name, value) ∈ block.settings := mem_filterMap.mpr ⟨_, h, rfl⟩
        obtain ⟨group, hgroup⟩ := hb.settings.named
        have hallows := hb.allowed group hgroup _ hsetting
        rw [CfgHooks.allows, Bool.and_eq_true] at hallows
        refine .inr (.inr ⟨_, List.mem_map_of_mem hblock, _, hsetting, rfl, ?_,
          hb.values _ hsetting⟩)
        exact hooks.names group name (of_decide_eq_true hallows.1) (of_decide_eq_true hallows.2)
  · rcases mem_append.mp h with h | h
    · split_ifs at h
      · cases h
      · exact .inl (mem_singleton.mp h)
    · obtain ⟨comment, hcomment, rfl⟩ := List.mem_map.mp h
      exact .inr (.inl ⟨comment, rfl, hproper.trailer comment hcomment⟩)

theorem newline_quoteValue {value : Octstr} (h : 10 ∉ value) : 10 ∉ quoteValue value := by
  intro hmem
  obtain ⟨c, hc, hmem⟩ := mem_flatMap.mp hmem
  split_ifs at hmem with hspecial
  · rcases mem_cons.mp hmem with heq | hmem
    · cases heq
    · exact h (mem_singleton.mp hmem ▸ hc)
  · exact h (mem_singleton.mp hmem ▸ hc)

theorem newline_written (hproper : text.Proper hooks env) :
    ∀ line ∈ bodyLines text.blocks ++ text.ending, 10 ∉ line.written := by
  intro line hline
  rcases mem_lines hproper hline with rfl | ⟨comment, rfl, hbreak⟩ |
    ⟨settings, -, ⟨name, value⟩, -, rfl, hname, hbreak⟩
  · exact not_mem_nil
  · intro hmem
    rcases mem_cons.mp hmem with heq | hmem
    · cases heq
    · exact hbreak hmem
  · intro hmem
    simp only [CfgLine.written, mem_append, mem_cons, not_mem_nil, or_false] at hmem
    rcases hmem with hmem | hmem | hmem | hmem
    · have hspace := ((isVariableName_iff.mp hname).2 10 hmem).1
      exact absurd hspace (by decide)
    · exact absurd hmem (by decide)
    · exact newline_quoteValue hbreak hmem
    · cases hmem

theorem cfgRead_body (hproper : text.Proper hooks env) (hinclude : text.NoInclude)
    (hread : env.readFile (octstrGetCstr (some filename)) = some text.contents) :
    ∃ enough, ∀ rounds ≥ enough, cfgRead hooks env filename rounds =
      some (readLines hooks env filename (kept false (bodyLines text.blocks))) := by
  refine ⟨(bodyLines text.blocks ++ text.ending).length + 2, fun rounds hrounds => ?_⟩
  rw [← readLines_body]
  refine cfgRead_lines hread (newline_written hproper) (fun line hline => ?_) hrounds
  have hmem := (kept_sublist _ _).subset hline
  rcases mem_lines hproper hmem with rfl | ⟨comment, rfl, -⟩ |
    ⟨settings, hsettings, setting, hsetting, rfl, hname, -⟩
  · trivial
  · trivial
  · exact ⟨hname, hinclude settings hsettings setting hsetting⟩

theorem yields_of_harmless (hproper : text.Proper hooks env) (honce : text.SinglesOnce hooks env)
    (hwraps : text.WrapsHarmless) :
    ∃ cfg, readLines hooks env filename (kept false (bodyLines text.blocks)) = .ok cfg ∧
      cfg.Yields env text.groups := by
  have hnone : (cfgCreate filename).Yields env [] := by
    intro name
    exact .nil
  obtain ⟨cfg, hread, hyields⟩ :=
    foldlM_blocks hproper.blocks (sorted_cfgCreate hooks filename) hnone honce
  refine ⟨cfg, ?_, hyields⟩
  rw [readLines, foldlM_significant, filter_kept hwraps, hread]
  rfl

theorem Cfg.Yields.exists_group {groups : List Settings} (h : cfg.Yields env groups)
    {settings : Settings} (hmem : settings ∈ groups) (hproper : settings.Proper env) :
    ∃ name, ∃ grp ∈ cfg.groupsNamed name, grp.Holds settings := by
  obtain ⟨name, hname⟩ := hproper.named
  obtain ⟨i, hi, hget⟩ := mem_iff_getElem.mp (mem_named.mpr ⟨hmem, hname⟩)
  have hlength := (h name).length_eq
  refine ⟨name, (cfg.groupsNamed name)[i], getElem_mem _, ?_⟩
  have hholds := (forall₂_iff_get.mp (h name)).2 i (by omega) hi
  rw [get_eq_getElem, get_eq_getElem, hget] at hholds
  exact hholds

theorem noInclude_of_yields (hproper : text.Proper hooks env) {cfg : Cfg} (hclean : cfg.Clean hooks)
    (hyields : cfg.Yields env text.groups) : text.NoInclude := by
  intro settings hsettings setting hsetting
  have hp := hproper.groups settings hsettings
  obtain ⟨name, grp, hgrp, hholds⟩ := hyields.exists_group hsettings hp
  refine hclean.groups name grp hgrp setting.1 setting.2 ?_
  rw [hholds]
  exact lookup_of_mem hp.once hsetting

theorem singlesOnce_of_yields (hclean : cfg.Clean hooks) (hyields : cfg.Yields env text.groups) :
    text.SinglesOnce hooks env := by
  intro name hsingle
  rw [← (hyields name).length_eq, Cfg.groupsNamed, hclean.sorted.multi name hsingle]
  cases dictGet cfg.singleGroups name with
  | none => exact Nat.zero_le 1
  | some grp => exact le_rfl

theorem wrapsHarmless_of_yields (hproper : text.Proper hooks env) {cfg : Cfg}
    (hread : readLines hooks env filename (kept false (bodyLines text.blocks)) = .ok cfg)
    (hyields : cfg.Yields env text.groups) : text.WrapsHarmless := by
  obtain ⟨m, hm, hbound⟩ := readLines_atMost hread
  have htotal := hm text.groups hproper.groups hyields.has
  obtain ⟨hle, hall⟩ := freshCount_bodyLines (fun block hb => (hproper.blocks block hb).named)
    false []
  exact (hall (le_antisymm hle (htotal.trans hbound))).1

/-- **The round trip.**  A file gives exactly the groups it was written for if and only if no
variable mentions `include`, no group stored alone comes twice, and no wrapped comment swallows
a variable or the end of a group. -/
theorem cfgRead_yields_iff (hproper : text.Proper hooks env)
    (hread : env.readFile (octstrGetCstr (some filename)) = some text.contents) :
    (∃ rounds cfg, cfgRead hooks env filename rounds = some (.ok cfg) ∧
        cfg.Yields env text.groups) ↔
      text.NoInclude ∧ text.SinglesOnce hooks env ∧ text.WrapsHarmless := by
  constructor
  · rintro ⟨rounds, cfg, hcfg, hyields⟩
    have hclean := cfgRead_clean hcfg
    have hinclude := noInclude_of_yields hproper hclean hyields
    refine ⟨hinclude, singlesOnce_of_yields hclean hyields, ?_⟩
    obtain ⟨enough, hbody⟩ := cfgRead_body hproper hinclude hread
    have hlines := hbody (rounds + enough) (Nat.le_add_left _ _)
    rw [cfgRead_more hcfg enough] at hlines
    exact wrapsHarmless_of_yields hproper (Option.some.inj hlines).symm hyields
  · rintro ⟨hinclude, honce, hwraps⟩
    obtain ⟨enough, hbody⟩ := cfgRead_body hproper hinclude hread
    obtain ⟨cfg, hlines, hyields⟩ := yields_of_harmless hproper honce hwraps
    exact ⟨enough, cfg, by rw [hbody enough le_rfl, hlines], hyields⟩

def coreText (logFile : Octstr) : CfgText where
  blocks := [⟨[.comment (ascii " core"), .setting (ascii "group") (ascii "core"),
    .setting (ascii "log-file") logFile], by simp⟩]
  trailer := []

def coreFile (logFile : Octstr) : CfgEnv where
  readFile _ := some (coreText logFile).contents
  lstat _ := none
  readdir _ := []
  getenv _ := none

theorem coreText_proper {logFile : Octstr} (hbreak : 10 ∉ logFile) :
    (coreText logFile).Proper coreHooks (coreFile logFile) := by
  refine ⟨fun block hblock => ?_, fun comment h => by cases h⟩
  obtain rfl := mem_singleton.mp hblock
  have hgroup : expandEnvVars (fun _ => none) (ascii "core") = ascii "core" := by decide
  have hname : groupNameOf (coreFile logFile) [(ascii "group", ascii "core"),
    (ascii "log-file", logFile)] = some (ascii "core") := congrArg some hgroup
  have hallows : coreHooks.allows (ascii "core") (ascii "group") = true ∧
    coreHooks.allows (ascii "core") (ascii "log-file") = true := by decide +kernel
  refine ⟨?_, ?_, fun name h setting hsetting => ?_, fun setting hsetting => ?_,
    fun comment hcomment => ?_⟩
  · have honce : [ascii "group", ascii "log-file"].Nodup := by decide
    exact honce
  · exact mem_cons_self
  · obtain rfl := Option.some.inj (hname.symm.trans h)
    rcases mem_cons.mp hsetting with rfl | hsetting
    · exact hallows.1
    · obtain rfl := mem_singleton.mp hsetting
      exact hallows.2
  · rcases mem_cons.mp hsetting with rfl | hsetting
    · exact (by decide : 10 ∉ ascii "core")
    · obtain rfl := mem_singleton.mp hsetting
      exact hbreak
  · rcases mem_cons.mp hcomment with heq | hcomment
    · cases heq
      decide
    · simp at hcomment

theorem coreText_read : ∃ rounds cfg,
    cfgRead coreHooks (coreFile (ascii "kannel.log")) (ascii "kannel.conf") rounds =
      some (.ok cfg) ∧
    cfg.Yields (coreFile (ascii "kannel.log")) (coreText (ascii "kannel.log")).groups := by
  refine (cfgRead_yields_iff (coreText_proper (by decide)) rfl).mpr ⟨?_, fun name _ => ?_, ?_⟩
  · intro settings hsettings setting hsetting
    obtain rfl := mem_singleton.mp hsettings
    have hplain : ∀ setting ∈ [(ascii "group", ascii "core"),
        (ascii "log-file", ascii "kannel.log")],
        ¬ ascii "include" <:+: setting.1 ∧ ¬ ascii "include" <:+: setting.2 := by decide
    exact hplain setting hsetting
  · exact length_filter_le _ _
  · intro line hline
    cases hline

/-- **A log file named `include.log`** is taken for a file to include: the gateway does
not start. -/
theorem includeLog_not_read :
    (coreText (ascii "include.log")).Proper coreHooks (coreFile (ascii "include.log")) ∧
      ¬ ∃ rounds cfg,
        cfgRead coreHooks (coreFile (ascii "include.log")) (ascii "kannel.conf") rounds =
          some (.ok cfg) ∧
        cfg.Yields (coreFile (ascii "include.log")) (coreText (ascii "include.log")).groups := by
  have hproper : (coreText (ascii "include.log")).Proper coreHooks
      (coreFile (ascii "include.log")) := coreText_proper (by decide)
  refine ⟨hproper, ?_⟩
  rintro ⟨rounds, cfg, hread, hyields⟩
  have hinclude := noInclude_of_yields hproper (cfgRead_clean hread) hyields
  have hlog := (hinclude _ mem_cons_self (ascii "log-file", ascii "include.log")
    (mem_cons_of_mem _ mem_cons_self)).2
  exact hlog (by decide)

end RoundTrip
end Kannel
