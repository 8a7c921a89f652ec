import Kannel.Gwlib.Cfg

/-!
# Configurations that are written and read again

Every variable has a line with its value in quotes, and a blank line ends a group. In the way
stand a variable that mentions `include`, a group stored alone that comes twice, and a comment
that ends in a backslash.
-/

namespace Kannel
open List

abbrev Settings := List (Octstr × Octstr)

inductive CfgLine
  | comment (text : Octstr)
  | setting (name value : Octstr)
  | separator

def quoteValue (value : Octstr) : Octstr :=
  value.flatMap fun c => if c = 92 ∨ c = 34 then [92, c] else [c]

def CfgLine.written : CfgLine → Octstr
  | .comment text => 35 :: text
  | .setting name value => name ++ ([32, 61, 32, 34] ++ (quoteValue value ++ [34]))
  | .separator => []

def CfgLine.wraps : CfgLine → Bool
  | .comment text => (35 :: text).getLast? = some 92 && (35 :: text).dropLast.getLast? ≠ some 92
  | _ => false

def CfgLine.significant : CfgLine → Bool
  | .comment _ => false
  | _ => true

def CfgLine.setting? : CfgLine → Option (Octstr × Octstr)
  | .setting name value => some (name, value)
  | _ => none

structure CfgBlock where
  lines : List CfgLine
  inner : ∀ line ∈ lines, line ≠ .separator

def CfgBlock.settings (block : CfgBlock) : Settings := block.lines.filterMap CfgLine.setting?

structure CfgText where
  blocks : List CfgBlock
  trailer : List Octstr

def bodyLines : List CfgBlock → List CfgLine
  | [] => []
  | [block] => block.lines
  | block :: next :: blocks => block.lines ++ .separator :: bodyLines (next :: blocks)

def CfgText.ending (text : CfgText) : List CfgLine :=
  (if text.blocks = [] then [] else [.separator]) ++ text.trailer.map .comment

def CfgText.contents (text : CfgText) : Octstr :=
  (bodyLines text.blocks ++ text.ending).flatMap fun line => line.written ++ [10]

def groupNameOf (env : CfgEnv) (settings : Settings) : Option Octstr :=
  (settings.lookup (ascii "group")).map (expandEnvVars env.getenv)

/-- Every variable is set once, `group` among them, all are allowed, and no line break is in a
value or a comment. -/
structure CfgBlock.Proper (hooks : CfgHooks) (env : CfgEnv) (block : CfgBlock) : Prop where
  once : (block.settings.map Prod.fst).Nodup
  named : ascii "group" ∈ block.settings.map Prod.fst
  allowed : ∀ name, groupNameOf env block.settings = some name →
    ∀ setting ∈ block.settings, hooks.allows name setting.1 = true
  values : ∀ setting ∈ block.settings, 10 ∉ setting.2
  comments : ∀ text, .comment text ∈ block.lines → 10 ∉ text

structure CfgText.Proper (hooks : CfgHooks) (env : CfgEnv) (text : CfgText) : Prop where
  blocks : ∀ block ∈ text.blocks, block.Proper hooks env
  trailer : ∀ comment ∈ text.trailer, 10 ∉ comment

def Cfg.groupsNamed (cfg : Cfg) (name : Octstr) : List CfgGroup :=
  (dictGet cfg.singleGroups name).toList ++ (dictGet cfg.multiGroups name).getD []

def CfgGroup.Holds (grp : CfgGroup) (settings : Settings) : Prop :=
  ∀ varname, dictGet grp.vars varname = settings.lookup varname

def named (env : CfgEnv) (name : Octstr) (groups : List Settings) : List Settings :=
  groups.filter fun settings => groupNameOf env settings = some name

def Cfg.Yields (env : CfgEnv) (cfg : Cfg) (groups : List Settings) : Prop :=
  ∀ name, Forall₂ CfgGroup.Holds (cfg.groupsNamed name) (named env name groups)

def CfgText.groups (text : CfgText) : List Settings := text.blocks.map CfgBlock.settings

def swallowed : (going : Bool) → List CfgLine → List CfgLine
  | _, [] => []
  | going, line :: lines => (if going then [line] else []) ++ swallowed line.wraps lines

def kept : (going : Bool) → List CfgLine → List CfgLine
  | _, [] => []
  | going, line :: lines => (if going then [] else [line]) ++ kept line.wraps lines

def CfgText.NoInclude (text : CfgText) : Prop :=
  ∀ settings ∈ text.groups, ∀ setting ∈ settings,
    ¬ ascii "include" <:+: setting.1 ∧ ¬ ascii "include" <:+: setting.2

def CfgText.SinglesOnce (hooks : CfgHooks) (env : CfgEnv) (text : CfgText) : Prop :=
  ∀ name, hooks.isSingleGroup name = true → (named env name text.groups).length ≤ 1

/-- A wrapped comment swallows comments only, or the end of the last group. -/
def CfgText.WrapsHarmless (text : CfgText) : Prop :=
  ∀ line ∈ swallowed false (bodyLines text.blocks), line.significant = false

theorem unquote_quoteValue (value : Octstr) : unquote (quoteValue value) = value := by
  induction value with
  | nil => rfl
  | cons c value ih =>
    by_cases hc : c = 92 ∨ c = 34
    · have hquote : quoteValue (c :: value) = 92 :: c :: quoteValue value := by
        rw [quoteValue, flatMap_cons, if_pos hc]
        rfl
      rw [hquote, unquote, if_neg (by simp), if_pos hc, ih]
    · have hquote : quoteValue (c :: value) = c :: quoteValue value := by
        rw [quoteValue, flatMap_cons, if_neg hc]
        rfl
      rw [hquote]
      obtain ⟨hback, -⟩ := not_or.mp hc
      cases hrest : quoteValue value with
      | nil =>
        rw [hrest] at ih
        rw [unquote, ← ih, unquote]
      | cons d rest => rw [unquote, if_pos hback, ← hrest, ih]

section Line
variable {name value : Octstr}

theorem isVariableName_iff : isVariableName name = true ↔
    (∃ c rest, name = c :: rest ∧ c ≠ 35) ∧ ∀ c ∈ name, isspace c = false ∧ c ≠ 61 := by
  cases name with
  | nil => simp [isVariableName]
  | cons c rest =>
    simp [isVariableName]
    tauto

section
variable (hname : isVariableName name = true)
include hname

theorem strip_written :
    octstrStripBlanks (CfgLine.setting name value).written =
      (CfgLine.setting name value).written := by
  obtain ⟨⟨c, rest, rfl, -⟩, hplain⟩ := isVariableName_iff.mp hname
  refine octstrStripBlanks_eq_self ?_ ?_
  · intro d hd
    obtain rfl := Option.some.inj hd
    exact (hplain _ mem_cons_self).1
  · intro d hd
    rw [CfgLine.written, ← append_assoc, ← append_assoc, List.getLast?_concat] at hd
    obtain rfl := Option.some.inj hd
    decide

theorem search_equals :
    octstrSearchChar (CfgLine.setting name value).written 61 0 = some (name.length + 1) := by
  obtain ⟨-, hplain⟩ := isVariableName_iff.mp hname
  have hbefore : (61 : UInt8) ∉ name ++ [32] := by
    rw [mem_append, not_or]
    exact ⟨fun h => (hplain 61 h).2 rfl, by decide⟩
  have hsplit : (CfgLine.setting name value).written.drop 0 =
      (name ++ [32]) ++ 61 :: ([32, 34] ++ (quoteValue value ++ [34])) := by
    simp [CfgLine.written]
  rw [octstrSearchChar_some hsplit hbefore, length_append, Nat.zero_add]
  rfl

theorem name_written :
    octstrStripBlanks ((CfgLine.setting name value).written.take (name.length + 1)) = name := by
  have htake : (CfgLine.setting name value).written.take (name.length + 1) = name ++ [32] := by
    rw [CfgLine.written, take_length_add_append]
    rfl
  obtain ⟨⟨c, rest, rfl, -⟩, hplain⟩ := isVariableName_iff.mp hname
  rw [htake, octstrStripBlanks_concat (by decide) (hplain c mem_cons_self).1]
  refine octstrStripBlanks_eq_self ?_ ?_
  · intro d hd
    obtain rfl := Option.some.inj hd
    exact (hplain _ mem_cons_self).1
  · intro d hd
    exact (hplain d (mem_of_getLast? hd)).1

end

theorem value_written (name value : Octstr) :
    parseCfgValue ((CfgLine.setting name value).written.drop (name.length + 1 + 1)) = value := by
  have hdrop : (CfgLine.setting name value).written.drop (name.length + 1 + 1) =
      32 :: (34 :: (quoteValue value ++ [34])) := by
    rw [CfgLine.written, Nat.add_assoc, drop_length_add_append]
    rfl
  have hstrip : octstrStripBlanks (32 :: (34 :: (quoteValue value ++ [34]))) =
      34 :: (quoteValue value ++ [34]) := by
    rw [octstrStripBlanks_cons (by decide)]
    refine octstrStripBlanks_eq_self ?_ ?_
    · intro d hd
      obtain rfl := Option.some.inj hd
      decide
    · intro d hd
      rw [← cons_append, List.getLast?_concat] at hd
      obtain rfl := Option.some.inj hd
      decide
  rw [hdrop, parseCfgValue, hstrip]
  have hlast : (34 :: (quoteValue value ++ [34])).getLast? = some 34 := by
    rw [← cons_append, List.getLast?_concat]
  rw [if_pos ⟨rfl, hlast⟩, ← cons_append, dropLast_concat, drop_one, tail_cons, unquote_quoteValue]

end Line

section Include
variable {w : Octstr}

theorem infix_side {x : UInt8} (hx : x ∉ w) {a b : Octstr} (h : w <:+: a ++ x :: b) :
    w <:+: a ∨ w <:+: b := by
  obtain ⟨before, after, h⟩ := h
  rcases append_eq_append_iff.mp h with ⟨mid, rfl, -⟩ | ⟨mid, hmid, hrest⟩
  · exact .inl ⟨before, mid, rfl⟩
  · rcases append_eq_append_iff.mp hmid with ⟨c, rfl, hw⟩ | ⟨c, rfl, hc⟩
    · cases mid with
      | nil =>
        rw [append_nil] at hw
        exact .inl ⟨before, [], by rw [hw, append_nil]⟩
      | cons y mid =>
        obtain ⟨rfl, -⟩ := List.cons.inj hrest
        exact absurd (hw ▸ mem_append_right c mem_cons_self) hx
    · cases c with
      | nil =>
        rw [nil_append] at hc
        cases mid with
        | nil => exact .inl (hc ▸ nil_infix)
        | cons y mid =>
          obtain ⟨rfl, -⟩ := List.cons.inj hrest
          exact absurd (hc ▸ mem_cons_self) hx
      | cons y c =>
        subst hc
        obtain ⟨-, rfl⟩ := List.cons.inj hrest
        exact .inr ⟨c, after, rfl⟩

def Keeps (first second : Octstr) : Prop :=
  ∀ w : Octstr, 92 ∉ w → 34 ∉ w → (w <+: first → w <+: second) ∧ (w <:+: first → w <:+: second)

theorem Keeps.cons {first second : Octstr} (h : Keeps first second) (c : UInt8) :
    Keeps (c :: first) (c :: second) := by
  intro w hback hquote
  have hfront : w <+: c :: first → w <+: c :: second := by
    intro hw
    cases w with
    | nil => exact nil_prefix
    | cons d w =>
      rw [mem_cons, not_or] at hback hquote
      obtain ⟨hd, htail⟩ := cons_prefix_cons.mp hw
      exact cons_prefix_cons.mpr ⟨hd, (h w hback.2 hquote.2).1 htail⟩
  refine ⟨hfront, fun hw => ?_⟩
  rcases infix_cons_iff.mp hw with hw | hw
  · exact (hfront hw).isInfix
  · exact ((h w hback hquote).2 hw).trans (suffix_cons c second).isInfix

theorem Keeps.special {first second whole : Octstr} {x : UInt8} (hx : x = 92 ∨ x = 34)
    (h : Keeps first second) (hwhole : second <:+ whole) : Keeps (x :: first) whole := by
  intro w hback hquote
  have hxw : x ∉ w := by rcases hx with rfl | rfl <;> assumption
  constructor
  · intro hw
    cases w with
    | nil => exact nil_prefix
    | cons d w =>
      obtain ⟨rfl, -⟩ := cons_prefix_cons.mp hw
      exact absurd mem_cons_self hxw
  · intro hw
    rcases infix_side (a := []) hxw hw with hw | hw
    · exact hw.trans nil_infix
    · exact ((h w hback hquote).2 hw).trans hwhole.isInfix

theorem keeps_quoteValue (value : Octstr) : Keeps (quoteValue value) value := by
  induction value with
  | nil => exact fun w _ _ => ⟨id, id⟩
  | cons c value ih =>
    rw [quoteValue, flatMap_cons]
    split_ifs with hc
    · exact (ih.cons c).special (.inl rfl) suffix_rfl
    · exact ih.cons c

theorem keeps_unquote (raw : Octstr) : Keeps (unquote raw) raw := by
  fun_induction unquote raw with
  | case1 => exact fun w _ _ => ⟨id, id⟩
  | case2 => exact fun w _ _ => ⟨id, id⟩
  | case3 c d rest _ ih => exact ih.cons c
  | case4 c d rest _ hd ih => exact ih.special hd ⟨[c, d], rfl⟩
  | case5 c d rest hc _ ih =>
    rw [not_not.mp hc]
    exact (ih.cons d).cons 92

theorem include_letters : (92 : UInt8) ∉ ascii "include" ∧ (34 : UInt8) ∉ ascii "include" ∧
    (32 : UInt8) ∉ ascii "include" ∧ (61 : UInt8) ∉ ascii "include" ∧ ascii "include" ≠ [] := by
  decide

theorem include_written {name value : Octstr}
    (h : ascii "include" <:+: (CfgLine.setting name value).written) :
    ascii "include" <:+: name ∨ ascii "include" <:+: value := by
  obtain ⟨hback, hquote, hblank, hequals, hne⟩ := include_letters
  have hnil : ¬ ascii "include" <:+: [] := fun h => hne (infix_nil.mp h)
  rcases infix_side hblank h with h | h
  · exact .inl h
  rcases infix_side (a := []) hequals h with h | h
  · exact absurd h hnil
  rcases infix_side (a := []) hblank h with h | h
  · exact absurd h hnil
  rcases infix_side (a := []) hquote h with h | h
  · exact absurd h hnil
  rcases infix_side hquote h with h | h
  · exact .inr ((keeps_quoteValue value _ hback hquote).2 h)
  · exact absurd h hnil

theorem include_parseCfgValue {raw : Octstr} (h : ascii "include" <:+: parseCfgValue raw) :
    ascii "include" <:+: raw := by
  obtain ⟨hback, hquote, -⟩ := include_letters
  refine List.IsInfix.trans ?_ (octstrStripBlanks_within raw)
  unfold parseCfgValue at h
  dsimp only at h
  split_ifs at h
  · refine ((keeps_unquote _ _ hback hquote).2 h).trans ?_
    exact (drop_suffix _ _).isInfix.trans (List.dropLast_prefix _).isInfix
  · exact h

end Include

theorem strip_head {d : UInt8} (hd : isspace d = false) (rest : Octstr) :
    ∃ stripped, octstrStripBlanks (d :: rest) = d :: stripped := by
  have hfront : (d :: rest).dropWhile isspace = d :: rest := by
    rw [dropWhile_cons, if_neg (Bool.eq_false_iff.mp hd)]
  have hfirst : octstrStripBlanks (d :: rest) <+: d :: rest := by
    rw [octstrStripBlanks, hfront, ← reverse_suffix, reverse_reverse]
    exact dropWhile_suffix _
  cases hstrip : octstrStripBlanks (d :: rest) with
  | nil =>
    rw [octstrStripBlanks, hfront, reverse_eq_nil_iff, dropWhile_eq_nil_iff] at hstrip
    exact absurd (hstrip d (by simp)) (Bool.eq_false_iff.mp hd)
  | cons e stripped =>
    rw [hstrip] at hfirst
    exact ⟨stripped, by rw [(cons_prefix_cons.mp hfirst).1]⟩

def CfgLine.Shows : CfgLine → Octstr → Prop
  | .comment _, loc => loc.head? = some 35
  | line, loc => loc = line.written

theorem CfgLine.shows_written (line : CfgLine) : line.Shows line.written := by
  cases line <;> rfl

variable {line : CfgLine}

theorem CfgLine.comment_of_wraps (h : line.wraps = true) : ∃ text, line = .comment text := by
  cases line with
  | comment text => exact ⟨text, rfl⟩
  | setting | separator => cases h

theorem CfgLine.getLast?_written (h : line.written.getLast? = some 92) :
    ∃ text, line = .comment text ∧ line.Shows line.written.dropLast := by
  cases line with
  | comment text =>
    refine ⟨text, rfl, ?_⟩
    cases text with
    | nil => exact absurd h (by decide)
    | cons c text => rfl
  | setting name value =>
    rw [written, ← append_assoc, ← append_assoc, List.getLast?_concat] at h
    exact absurd h (by decide)
  | separator => cases h

theorem joinLines_written (loc : Option Octstr) (line : CfgLine) (lines : List Octstr) :
    ∃ shown, line.Shows shown ∧
      joinLines loc (line.written :: lines) =
        if line.wraps then joinLines (some (loc.getD [] ++ shown)) lines
        else (loc.getD [] ++ shown) :: joinLines none lines := by
  by_cases hlast : line.written.getLast? = some 92
  · obtain ⟨text, rfl, hshows⟩ := line.getLast?_written hlast
    refine ⟨_, hshows, ?_⟩
    by_cases hdouble : (CfgLine.comment text).written.dropLast.getLast? = some 92
    · have hwraps : (CfgLine.comment text).wraps = false := by
        simp only [CfgLine.wraps, Bool.and_eq_false_imp]
        intro _
        exact decide_eq_false (not_not.mpr hdouble)
      rw [joinLines, if_pos hlast, if_pos hdouble, hwraps, if_neg Bool.false_ne_true]
    · have hwraps : (CfgLine.comment text).wraps = true := by
        rw [CfgLine.wraps, Bool.and_eq_true]
        exact ⟨decide_eq_true hlast, decide_eq_true hdouble⟩
      rw [joinLines, if_pos hlast, if_neg hdouble, hwraps, if_pos rfl]
  · have hwraps : line.wraps = false := by
      rw [Bool.eq_false_iff]
      intro hwraps
      obtain ⟨text, rfl⟩ := CfgLine.comment_of_wraps hwraps
      rw [CfgLine.wraps, Bool.and_eq_true] at hwraps
      exact hlast (of_decide_eq_true hwraps.1)
    refine ⟨_, line.shows_written, ?_⟩
    rw [joinLines, if_neg hlast, hwraps, if_neg Bool.false_ne_true]

variable (lines : List CfgLine)

theorem joinLines_shows :
    Forall₂ CfgLine.Shows (kept false lines) (joinLines none (lines.map CfgLine.written)) ∧
      ∀ loc : Octstr, loc.head? = some 35 →
        ∃ first rest, joinLines (some loc) (lines.map CfgLine.written) = first :: rest ∧
          first.head? = some 35 ∧ Forall₂ CfgLine.Shows (kept true lines) rest := by
  induction lines with
  | nil => exact ⟨.nil, fun loc hloc => ⟨loc, [], rfl, hloc, .nil⟩⟩
  | cons line lines ih =>
    obtain ⟨ihnone, ihsome⟩ := ih
    constructor
    · obtain ⟨shown, hshown, hround⟩ := joinLines_written none line (lines.map CfgLine.written)
      rw [map_cons, hround, Option.getD_none, nil_append, kept]
      cases hwraps : line.wraps with
      | false => exact .cons hshown ihnone
      | true =>
        obtain ⟨text, rfl⟩ := CfgLine.comment_of_wraps hwraps
        obtain ⟨first, rest, hjoin, hfirst, hrest⟩ := ihsome shown hshown
        rw [hjoin]
        exact .cons hfirst hrest
    · intro loc hloc
      obtain ⟨shown, hshown, hround⟩ :=
        joinLines_written (some loc) line (lines.map CfgLine.written)
      have hhead : (loc ++ shown).head? = some 35 := by
        rw [List.head?_append, hloc]
        rfl
      rw [map_cons, hround, kept]
      cases hwraps : line.wraps with
      | false => exact ⟨loc ++ shown, _, rfl, hhead, ihnone⟩
      | true => exact ihsome _ hhead

theorem kept_sublist (going : Bool) (lines : List CfgLine) : (kept going lines).Sublist lines := by
  induction lines generalizing going with
  | nil => exact List.Sublist.slnil
  | cons line lines ih =>
    cases going with
    | false => exact (ih _).cons_cons line
    | true => exact (ih _).cons line

variable {lines : List CfgLine} {cfg : Cfg} {settings : Settings}

section Read
variable (hooks : CfgHooks) (env : CfgEnv)

abbrev Progress := Option CfgGroup × Cfg

def closeGroup (st : Progress) : Except Failure Progress :=
  match st.1 with
  | none => .ok st
  | some grp =>
    match addGroup hooks env st.2 grp with
    | none => .error .invalid
    | some cfg => .ok (none, cfg)

def putSetting (st : Progress) (name value : Octstr) : Progress :=
  (some (cfgSet { st.1.getD createGroup with configfile := some st.2.filename } name value), st.2)

def lineEffect (st : Progress) : CfgLine → Except Failure Progress
  | .comment _ => .ok st
  | .setting name value => .ok (putSetting st name value)
  | .separator => closeGroup hooks env st

def CfgLine.Plain : CfgLine → Prop
  | .setting name value => isVariableName name = true ∧
      ¬ ascii "include" <:+: name ∧ ¬ ascii "include" <:+: value
  | _ => True

variable {hooks env} {s : Reading}

def Reading.advance (s : Reading) (st : Progress) : Reading := { s with grp := st.1, cfg := st.2 }

theorem endGroup_eq (s : Reading) :
    endGroup hooks env s = (closeGroup hooks env (s.grp, s.cfg)).map s.advance := by
  unfold endGroup closeGroup
  cases hgrp : s.grp with
  | none =>
    simp only [Except.map, Reading.advance]
    rw [← hgrp]
  | some grp =>
    dsimp only
    cases addGroup hooks env s.cfg grp <;> rfl

theorem readLine_shows {loc : Octstr} (hshows : line.Shows loc) (hplain : line.Plain) :
    readLine hooks env s loc = (lineEffect hooks env (s.grp, s.cfg) line).map s.advance := by
  cases line with
  | comment text =>
    obtain ⟨rest, rfl⟩ := List.head?_eq_some_iff.mp hshows
    obtain ⟨stripped, hstripped⟩ := strip_head (by decide : isspace 35 = false) rest
    rw [readLine, hstripped, List.head?_cons]
    rfl
  | setting name value =>
    obtain ⟨hname, hinclude⟩ := hplain
    obtain ⟨⟨c, rest, hcons, hc⟩, -⟩ := isVariableName_iff.mp hname
    obtain rfl : loc = (CfgLine.setting name value).written := hshows
    have hhead : (CfgLine.setting name value).written.head? = some c := by
      rw [hcons]
      rfl
    have hne : (CfgLine.setting name value).written ≠ [] := by
      intro h
      rw [h] at hhead
      cases hhead
    have hsearch : (octstrSearch (CfgLine.setting name value).written (ascii "include") 0).isSome
        = false := by
      rw [Bool.eq_false_iff]
      intro h
      rcases include_written ((octstrSearch_isSome_iff include_letters.2.2.2.2).mp h) with h | h
      · exact hinclude.1 h
      · exact hinclude.2 h
    rw [readLine, strip_written hname, if_neg hne, hhead,
      if_neg (fun h => hc (Option.some.inj h)), search_equals hname]
    dsimp only
    rw [hsearch, setVariable, name_written hname, value_written]
    rfl
  | separator =>
    obtain rfl : loc = [] := hshows
    rw [lineEffect, ← endGroup_eq]
    rfl

variable (hooks env) in
theorem cfgReadLoop_shows {locs : List Octstr} (hshows : Forall₂ CfgLine.Shows lines locs)
    (hplain : ∀ line ∈ lines, line.Plain) (rounds : Nat) (rest : List Octstr) (s : Reading) :
    cfgReadLoop hooks env (locs.length + rounds) { s with lines := locs ++ rest } =
      match lines.foldlM (lineEffect hooks env) (s.grp, s.cfg) with
      | .error failure => some (.error failure)
      | .ok st => cfgReadLoop hooks env rounds { s.advance st with lines := rest } := by
  induction hshows generalizing s with
  | nil =>
    rw [length_nil, Nat.zero_add]
    rfl
  | @cons line loc lines locs hline _ ih =>
    have hround : readLine hooks env { s with lines := locs ++ rest } loc =
        (lineEffect hooks env (s.grp, s.cfg) line).map
          (Reading.advance { s with lines := locs ++ rest }) :=
      readLine_shows hline (hplain line mem_cons_self)
    rw [length_cons, Nat.add_right_comm, cfgReadLoop, foldlM_cons]
    dsimp only [cons_append]
    rw [hround]
    cases lineEffect hooks env (s.grp, s.cfg) line with
    | error failure => rfl
    | ok st =>
      have hnext := ih (fun l hl => hplain l (mem_cons_of_mem _ hl)) (s.advance st)
      exact hnext

variable (hooks env) in
theorem closeGroup_twice (st : Progress) :
    (closeGroup hooks env st >>= closeGroup hooks env) = closeGroup hooks env st := by
  unfold closeGroup
  cases hgrp : st.1 with
  | none =>
    rw [ok_bind, hgrp]
  | some grp =>
    dsimp only
    cases addGroup hooks env st.2 grp <;> rfl

theorem cfgReadLoop_more {rounds : Nat} {s : Reading} {result : Except Failure Cfg}
    (h : cfgReadLoop hooks env rounds s = some result) (more : Nat) :
    cfgReadLoop hooks env (rounds + more) s = some result := by
  induction rounds generalizing s with
  | zero => cases h
  | succ rounds ih =>
    rw [Nat.add_right_comm]
    unfold cfgReadLoop at h ⊢
    cases hlines : s.lines with
    | nil =>
      rw [hlines] at h
      exact h
    | cons loc lines =>
      rw [hlines] at h
      dsimp only at h ⊢
      cases hline : readLine hooks env { s with lines := lines } loc with
      | error failure =>
        rw [hline] at h
        exact h
      | ok s' =>
        rw [hline] at h
        exact ih h

variable (hooks env) in
theorem cfgReadLoop_end (rounds : Nat) (s : Reading) :
    cfgReadLoop hooks env (rounds + 1) { s with lines := [] } =
      some ((closeGroup hooks env (s.grp, s.cfg)).map Prod.snd) := by
  rw [cfgReadLoop, endGroup_eq]
  cases closeGroup hooks env (s.grp, s.cfg) <;> rfl

variable (hooks env) in
theorem cfgReadLoop_newline (rounds : Nat) (s : Reading) :
    cfgReadLoop hooks env (rounds + 2) { s with lines := [[10]] } =
      some ((closeGroup hooks env (s.grp, s.cfg)).map Prod.snd) := by
  have hstrip : octstrStripBlanks [10] = [] := by decide
  rw [cfgReadLoop]
  dsimp only
  rw [readLine, hstrip, endGroup_eq]
  have htwice := closeGroup_twice hooks env (s.grp, s.cfg)
  cases hclose : closeGroup hooks env (s.grp, s.cfg) with
  | error failure => rfl
  | ok st =>
    rw [hclose, ok_bind] at htwice
    have hend := cfgReadLoop_end hooks env rounds (s.advance st)
    rw [show ((s.advance st).grp, (s.advance st).cfg) = st from rfl, htwice] at hend
    exact hend

def readLines (hooks : CfgHooks) (env : CfgEnv) (filename : Octstr) (lines : List CfgLine) :
    Except Failure Cfg :=
  (lines.foldlM (lineEffect hooks env) (none, cfgCreate filename) >>= closeGroup hooks env).map
    Prod.snd

variable {filename : Octstr}

theorem cfgRead_lines
    (hread : env.readFile (octstrGetCstr (some filename)) =
      some (lines.flatMap fun line => line.written ++ [10]))
    (hbreak : ∀ line ∈ lines, 10 ∉ line.written) (hplain : ∀ line ∈ kept false lines, line.Plain)
    {rounds : Nat} (hrounds : lines.length + 2 ≤ rounds) :
    cfgRead hooks env filename rounds = some (readLines hooks env filename (kept false lines)) := by
  have hsplit : octstrSplit (lines.flatMap fun line => line.written ++ [10]) 10 =
      lines.map CfgLine.written := by
    have hflat : (lines.flatMap fun line => line.written ++ [10]) =
        (lines.map CfgLine.written).flatMap (· ++ [10]) := by
      rw [flatMap_map]
    rw [hflat]
    refine octstrSplit_lines fun text htext => ?_
    obtain ⟨line, hline, rfl⟩ := List.mem_map.mp htext
    exact hbreak line hline
  have hshows := (joinLines_shows lines).1
  have hlength : (joinLines none (lines.map CfgLine.written)).length ≤ lines.length := by
    rw [← hshows.length_eq]
    exact (kept_sublist false lines).length_le
  obtain ⟨more, rfl⟩ := Nat.exists_eq_add_of_le
    (show (joinLines none (lines.map CfgLine.written)).length + 2 ≤ rounds by omega)
  rw [cfgRead, expandFile, hread, Option.map_some, hsplit, readLines]
  dsimp only
  generalize joinLines none (lines.map CfgLine.written) = locs at hshows
  generalize kept false lines = left at hshows hplain
  split_ifs with hnil
  · subst hnil
    cases hshows
    rw [Nat.add_right_comm]
    exact cfgReadLoop_end hooks env _ ⟨[], [filename], none, cfgCreate filename⟩
  · have hloop := cfgReadLoop_shows hooks env hshows hplain (2 + more) [[10]]
      ⟨[], [filename], none, cfgCreate filename⟩
    rw [Nat.add_assoc, hloop]
    cases left.foldlM (lineEffect hooks env) (none, cfgCreate filename) with
    | error failure => rfl
    | ok st =>
      rw [Nat.add_comm 2 more]
      exact cfgReadLoop_newline hooks env more (Reading.advance ⟨[], [filename], none, _⟩ st)

theorem foldlM_ending (h : ∀ line ∈ lines, line = .separator ∨ ∃ text, line = .comment text)
    (st : Progress) :
    (lines.foldlM (lineEffect hooks env) st >>= closeGroup hooks env) =
      closeGroup hooks env st := by
  induction lines generalizing st with
  | nil => rfl
  | cons line lines ih =>
    have htail : ∀ l ∈ lines, l = .separator ∨ ∃ text, l = .comment text :=
      fun l hl => h l (mem_cons_of_mem _ hl)
    rw [foldlM_cons, bind_assoc]
    rcases h line mem_cons_self with rfl | ⟨text, rfl⟩
    · have hrest : (fun st' => lines.foldlM (lineEffect hooks env) st' >>= closeGroup hooks env) =
          closeGroup hooks env := funext fun st' => ih htail st'
      rw [lineEffect, hrest, closeGroup_twice]
    · exact ih htail st

theorem kept_append (going : Bool) (front back : List CfgLine) :
    ∃ going', kept going (front ++ back) = kept going front ++ kept going' back := by
  induction front generalizing going with
  | nil => exact ⟨going, rfl⟩
  | cons line front ih =>
    obtain ⟨going', h⟩ := ih line.wraps
    exact ⟨going', by rw [cons_append, kept, kept, h, append_assoc]⟩

theorem readLines_body (text : CfgText) :
    readLines hooks env filename (kept false (bodyLines text.blocks ++ text.ending)) =
      readLines hooks env filename (kept false (bodyLines text.blocks)) := by
  obtain ⟨going, hkept⟩ := kept_append false (bodyLines text.blocks) text.ending
  have hending : ∀ line ∈ kept going text.ending,
      line = .separator ∨ ∃ text, line = .comment text := by
    intro line hline
    have hmem := (kept_sublist going text.ending).subset hline
    rw [CfgText.ending, mem_append] at hmem
    rcases hmem with hmem | hmem
    · split_ifs at hmem
      · cases hmem
      · exact .inl (mem_singleton.mp hmem)
    · obtain ⟨comment, -, rfl⟩ := List.mem_map.mp hmem
      exact .inr ⟨comment, rfl⟩
  rw [hkept, readLines, foldlM_append, bind_assoc]
  refine congrArg _ (congrArg _ (funext fun st => ?_))
  exact foldlM_ending hending st

structure Cfg.Sorted (hooks : CfgHooks) (cfg : Cfg) : Prop where
  single : ∀ name, hooks.isSingleGroup name = false → dictGet cfg.singleGroups name = none
  multi : ∀ name, hooks.isSingleGroup name = true → dictGet cfg.multiGroups name = none

theorem sorted_cfgCreate (hooks : CfgHooks) (filename : Octstr) :
    (cfgCreate filename).Sorted hooks :=
  ⟨fun name _ => dictGet_dictCreate 64 name, fun name _ => dictGet_dictCreate 64 name⟩

theorem Cfg.Sorted.storeGroup (h : cfg.Sorted hooks) (name : Octstr) (grp : CfgGroup) :
    (storeGroup hooks cfg name grp).Sorted hooks := by
  unfold Kannel.storeGroup
  split_ifs with hsingle
  · refine ⟨fun other hother => ?_, h.multi⟩
    have hne : other ≠ name := by
      rintro rfl
      rw [hsingle] at hother
      cases hother
    rw [dictGet_dictPut, if_neg hne]
    exact h.single other hother
  · refine ⟨h.single, fun other hother => ?_⟩
    have hne : other ≠ name := by
      rintro rfl
      exact hsingle hother
    rw [dictGet_dictPut, if_neg hne]
    exact h.multi other hother

theorem groupsNamed_storeGroup (hsorted : cfg.Sorted hooks) (name other : Octstr) (grp : CfgGroup) :
    (storeGroup hooks cfg name grp).groupsNamed other =
      if other = name then
        (if hooks.isSingleGroup name then [] else cfg.groupsNamed other) ++ [grp]
      else cfg.groupsNamed other := by
  unfold storeGroup Cfg.groupsNamed
  by_cases hother : other = name
  · subst hother
    rw [if_pos rfl]
    split_ifs with hsingle
    · rw [dictGet_dictPut, if_pos rfl, hsorted.multi other hsingle]
      rfl
    · rw [dictGet_dictPut, if_pos rfl, hsorted.single other (Bool.eq_false_iff.mpr hsingle)]
      rfl
  · split_ifs
    · rw [dictGet_dictPut, if_neg hother]
    · rw [dictGet_dictPut, if_neg hother]

theorem named_concat (env : CfgEnv) (name : Octstr) (groups : List Settings) (settings : Settings) :
    named env name (groups ++ [settings]) =
      named env name groups ++ if groupNameOf env settings = some name then [settings] else [] := by
  by_cases h : groupNameOf env settings = some name
  · simp [named, filter_append, h]
  · simp [named, filter_append, h]

theorem Cfg.Yields.storeGroup {groups : List Settings} {name : Octstr} {grp : CfgGroup}
    (h : cfg.Yields env groups) (hsorted : cfg.Sorted hooks)
    (hname : groupNameOf env settings = some name) (hholds : grp.Holds settings)
    (honce : hooks.isSingleGroup name = true → named env name groups = []) :
    (storeGroup hooks cfg name grp).Yields env (groups ++ [settings]) := by
  intro other
  rw [groupsNamed_storeGroup hsorted, named_concat, hname]
  by_cases hother : other = name
  · subst hother
    rw [if_pos rfl, if_pos rfl]
    split_ifs with hsingle
    · rw [honce hsingle]
      exact .cons hholds .nil
    · exact rel_append (h other) (.cons hholds .nil)
  · rw [if_neg hother, if_neg (fun heq => hother (Option.some.inj heq).symm), append_nil]
    exact h other

theorem foldlM_significant (st : Progress) :
    lines.foldlM (lineEffect hooks env) st =
      (lines.filter CfgLine.significant).foldlM (lineEffect hooks env) st := by
  induction lines generalizing st with
  | nil => rfl
  | cons line lines ih =>
    cases line with
    | comment text =>
      exact ih st
    | setting | separator =>
      rw [filter_cons_of_pos rfl, foldlM_cons]
      exact congrArg _ (funext ih)

theorem filter_kept {going : Bool} (h : ∀ line ∈ swallowed going lines, line.significant = false) :
    (kept going lines).filter CfgLine.significant = lines.filter CfgLine.significant := by
  induction lines generalizing going with
  | nil => rfl
  | cons line lines ih =>
    have htail := ih fun l hl => h l (mem_append_right _ hl)
    rw [kept, filter_append, htail]
    cases going with
    | false =>
      rw [if_neg Bool.false_ne_true, ← filter_append, singleton_append]
    | true =>
      have hline := h line (mem_append_left _ (by simp))
      rw [if_pos rfl, filter_nil, nil_append, filter_cons_of_neg (Bool.eq_false_iff.mp hline)]

theorem CfgBlock.filter_significant (block : CfgBlock) :
    block.lines.filter CfgLine.significant =
      block.settings.map fun setting => .setting setting.1 setting.2 := by
  obtain ⟨lines, hinner⟩ := block
  induction lines with
  | nil => rfl
  | cons line lines ih =>
    have htail := ih fun l hl => hinner l (mem_cons_of_mem _ hl)
    cases line with
    | comment text => exact htail
    | setting name value =>
      rw [filter_cons_of_pos rfl, htail]
      rfl
    | separator => exact absurd rfl (hinner _ mem_cons_self)

def putSettings (st : Progress) (settings : Settings) : Progress :=
  settings.foldl (fun st setting => putSetting st setting.1 setting.2) st

theorem foldlM_settings (settings : Settings) (st : Progress) :
    (settings.map fun setting => CfgLine.setting setting.1 setting.2).foldlM
      (lineEffect hooks env) st = .ok (putSettings st settings) := by
  induction settings generalizing st with
  | nil => rfl
  | cons setting settings ih =>
    rw [map_cons, foldlM_cons, lineEffect, ok_bind, ih]
    rfl

def currentVar (st : Progress) (varname : Octstr) : Option Octstr :=
  st.1.bind fun grp => dictGet grp.vars varname

theorem currentVar_putSetting (st : Progress) (name value varname : Octstr) :
    currentVar (putSetting st name value) varname =
      if varname = name then some value else currentVar st varname := by
  show dictGet (dictPut _ name (some value)) varname = _
  rw [dictGet_dictPut]
  cases hgrp : st.1 with
  | none =>
    rw [currentVar, hgrp, Option.getD_none, Option.bind_none, createGroup, dictGet_dictCreate]
  | some old =>
    rw [currentVar, hgrp]
    rfl

theorem lookup_cons_eq (name value varname : Octstr) (settings : Settings) :
    List.lookup varname ((name, value) :: settings) =
      if varname = name then some value else settings.lookup varname := by
  by_cases h : varname = name
  · simp [h]
  · rw [lookup_cons, beq_false_of_ne h, if_neg h]

theorem lookup_isSome_iff (settings : Settings) (varname : Octstr) :
    (settings.lookup varname).isSome = true ↔ varname ∈ settings.map Prod.fst := by
  induction settings with
  | nil => simp
  | cons setting settings ih =>
    rw [lookup_cons_eq setting.1 setting.2, map_cons]
    split_ifs with h
    · simp [h]
    · simp [h]

theorem currentVar_putSettings (honce : (settings.map Prod.fst).Nodup) (st : Progress)
    (varname : Octstr) :
    currentVar (putSettings st settings) varname =
      (settings.lookup varname).or (currentVar st varname) := by
  induction settings generalizing st with
  | nil => rfl
  | cons setting settings ih =>
    obtain ⟨name, value⟩ := setting
    rw [map_cons, nodup_cons] at honce
    have hstep : putSettings st ((name, value) :: settings) =
      putSettings (putSetting st name value) settings := rfl
    rw [hstep, ih honce.2, currentVar_putSetting, lookup_cons_eq]
    split_ifs with h
    · have hnone : settings.lookup varname = none := by
        rw [← Option.not_isSome_iff_eq_none, lookup_isSome_iff, h]
        exact honce.1
      rw [hnone]
      rfl
    · rfl

theorem putSettings_some (hne : settings ≠ []) (st : Progress) :
    ∃ grp, putSettings st settings = (some grp, st.2) := by
  induction settings generalizing st with
  | nil => exact absurd rfl hne
  | cons setting settings ih =>
    by_cases hnil : settings = []
    · rw [hnil]
      exact ⟨_, rfl⟩
    · exact ih hnil (putSetting st setting.1 setting.2)

theorem closeGroup_block {block : CfgBlock} (hproper : block.Proper hooks env) (cfg : Cfg) :
    ∃ name grp, groupNameOf env block.settings = some name ∧ grp.Holds block.settings ∧
      closeGroup hooks env (putSettings (none, cfg) block.settings) =
        .ok (none, storeGroup hooks cfg name grp) := by
  have hne : block.settings ≠ [] := by
    intro h
    have hnamed := hproper.named
    rw [h] at hnamed
    cases hnamed
  obtain ⟨grp, hgrp⟩ := putSettings_some hne (none, cfg)
  have hvars : ∀ varname, dictGet grp.vars varname = block.settings.lookup varname := by
    intro varname
    have hcurrent := currentVar_putSettings hproper.once (none, cfg) varname
    rw [hgrp] at hcurrent
    exact hcurrent.trans Option.or_none
  obtain ⟨value, hvalue⟩ :=
    Option.isSome_iff_exists.mp ((lookup_isSome_iff _ _).mpr hproper.named)
  have hname : groupNameOf env block.settings = some (expandEnvVars env.getenv value) := by
    rw [groupNameOf, hvalue]
    rfl
  have hkeys : (dictKeys grp.vars).all (hooks.allows (expandEnvVars env.getenv value)) = true := by
    refine List.all_eq_true.mpr fun varname hkey => ?_
    rw [mem_dictKeys, hvars, lookup_isSome_iff] at hkey
    obtain ⟨setting, hsetting, rfl⟩ := List.mem_map.mp hkey
    exact hproper.allowed _ hname setting hsetting
  refine ⟨_, { grp with name := some (expandEnvVars env.getenv value) }, hname, hvars, ?_⟩
  rw [hgrp, closeGroup]
  dsimp only
  rw [addGroup, cfgGet, hvars, hvalue, Option.map_some]
  dsimp only
  rw [hkeys, if_pos rfl]

theorem foldlM_block {block : CfgBlock} (hproper : block.Proper hooks env) {cfg : Cfg}
    {groups : List Settings} (hsorted : cfg.Sorted hooks) (hyields : cfg.Yields env groups)
    (honce : ∀ name, hooks.isSingleGroup name = true →
      (named env name (groups ++ [block.settings])).length ≤ 1) :
    ∃ cfg', ((block.lines.filter CfgLine.significant).foldlM (lineEffect hooks env)
        (none, cfg) >>= closeGroup hooks env) = .ok (none, cfg') ∧
      cfg'.Sorted hooks ∧ cfg'.Yields env (groups ++ [block.settings]) := by
  obtain ⟨name, grp, hname, hholds, hclose⟩ := closeGroup_block hproper cfg
  refine ⟨_, ?_, hsorted.storeGroup name grp, hyields.storeGroup hsorted hname hholds ?_⟩
  · rw [block.filter_significant, foldlM_settings, ok_bind, hclose]
  · intro hsingle
    have hlength := honce name hsingle
    rw [named_concat, hname, if_pos rfl, length_append, length_singleton] at hlength
    exact eq_nil_of_length_eq_zero (by omega)

theorem foldlM_blocks {blocks : List CfgBlock} (hproper : ∀ block ∈ blocks, block.Proper hooks env)
    {cfg : Cfg} {groups : List Settings} (hsorted : cfg.Sorted hooks)
    (hyields : cfg.Yields env groups)
    (honce : ∀ name, hooks.isSingleGroup name = true →
      (named env name (groups ++ blocks.map CfgBlock.settings)).length ≤ 1) :
    ∃ cfg', (((bodyLines blocks).filter CfgLine.significant).foldlM (lineEffect hooks env)
        (none, cfg) >>= closeGroup hooks env) = .ok (none, cfg') ∧
      cfg'.Yields env (groups ++ blocks.map CfgBlock.settings) := by
  induction blocks using bodyLines.induct generalizing cfg groups with
  | case1 => exact ⟨cfg, rfl, by rwa [map_nil, append_nil]⟩
  | case2 block =>
    obtain ⟨cfg', hread, -, hyields'⟩ :=
      foldlM_block (hproper block mem_cons_self) hsorted hyields honce
    exact ⟨cfg', hread, hyields'⟩
  | case3 block next blocks ih =>
    have hsplit : groups ++ (block :: next :: blocks).map CfgBlock.settings =
        (groups ++ [block.settings]) ++ (next :: blocks).map CfgBlock.settings := by
      rw [map_cons, append_assoc, singleton_append]
    rw [hsplit] at honce ⊢
    have hfirst : ∀ name, hooks.isSingleGroup name = true →
        (named env name (groups ++ [block.settings])).length ≤ 1 := by
      intro name hsingle
      refine le_trans ?_ (honce name hsingle)
      exact ((sublist_append_left _ _).filter _).length_le
    obtain ⟨cfg₁, hread₁, hsorted₁, hyields₁⟩ :=
      foldlM_block (hproper block mem_cons_self) hsorted hyields hfirst
    obtain ⟨cfg', hread, hyields'⟩ :=
      ih (fun b hb => hproper b (mem_cons_of_mem _ hb)) hsorted₁ hyields₁ honce
    refine ⟨cfg', ?_, hyields'⟩
    rw [bodyLines, filter_append, filter_cons_of_pos rfl, foldlM_append, bind_assoc]
    simp only [foldlM_cons, lineEffect]
    rw [← bind_assoc, ← bind_assoc, hread₁]
    exact hread

end Read
end Kannel
