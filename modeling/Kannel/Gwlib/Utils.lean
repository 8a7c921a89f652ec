import Kannel.Gwlib.OctstrText

/-!
# Prefix lists and address patterns

Numbers against lists of prefixes, addresses against patterns, and the unification of prefixes.
-/

namespace Kannel
open List

def semicolon : UInt8 := 59

def comparePrefix : Octstr → Octstr → Bool × Octstr
  | p, [] => (false, p)
  | [], _ :: _ => (true, [])
  | c :: p, d :: b =>
    if c = semicolon then (true, c :: p)
    else if c ≠ d then (false, c :: p)
    else comparePrefix p b

def nextEntry (p : Octstr) : Octstr :=
  (p.dropWhile (· ≠ semicolon)).dropWhile (· = semicolon)

def prefixLoop : Nat → Octstr → Octstr → Bool
  | 0, _, _ => false
  | fuel + 1, p, n =>
    if p = [] then false
    else
      let inner := comparePrefix p n
      if inner.1 then true
      else if inner.2.head? = some semicolon ∨ inner.2 = [] then true
      else prefixLoop fuel (nextEntry inner.2) n

def doesPrefixMatch (prefixes number : Option Octstr) : Except Failure Bool :=
  match prefixes, number with
  | some p, some n =>
    let list := octstrGetCstr (some p)
    .ok (prefixLoop list.length list (octstrGetCstr (some n)))
  | _, _ => .error .assertion

def prefixEntries (list : Octstr) : List Octstr :=
  match list.splitOnP (· = semicolon) with
  | first :: rest => if list = [] then [] else first :: rest.filter (· ≠ [])
  | [] => []

def firstEntry (p : Octstr) : Octstr := p.takeWhile (· ≠ semicolon)

variable (p n : Octstr)

theorem comparePrefix_spec :
    ((comparePrefix p n).1 = true ∨ (comparePrefix p n).2.head? = some semicolon ∨
        (comparePrefix p n).2 = [] ↔ firstEntry p <+: n) ∧
      (¬ firstEntry p <+: n → nextEntry (comparePrefix p n).2 = nextEntry p) := by
  fun_induction comparePrefix p n with
  | case1 p =>
    refine ⟨?_, fun _ => rfl⟩
    cases p with
    | nil => simp [firstEntry]
    | cons c p =>
      by_cases hc : c = semicolon
      · simp [firstEntry, hc]
      · simp [firstEntry, hc]
  | case2 d b => simp [firstEntry]
  | case3 p d b => simp [firstEntry]
  | case4 c p d b hc hne => simp [firstEntry, hc, hne]
  | case5 c p d b hc hne ih =>
    obtain rfl : c = d := not_not.mp hne
    have hfirst : firstEntry (c :: p) <+: c :: b ↔ firstEntry p <+: b := by
      simp [firstEntry, hc]
    have hnext : nextEntry (c :: p) = nextEntry p := by simp [nextEntry, hc]
    rw [hfirst, hnext]
    exact ih

variable {p : Octstr}

theorem length_nextEntry_lt (hne : p ≠ []) : (nextEntry p).length < p.length := by
  match p, hne with
  | c :: p, _ =>
    have hskip := (dropWhile_sublist (fun x : UInt8 => decide (x = semicolon))
      (l := p.dropWhile (· ≠ semicolon))).length_le
    have hentry := (dropWhile_sublist (fun x : UInt8 => decide (x ≠ semicolon)) (l := p)).length_le
    by_cases hc : c = semicolon
    · have hdrop : nextEntry (c :: p) = p.dropWhile (· = semicolon) := by
        simp [nextEntry, hc]
      have hsep := (dropWhile_sublist (fun x : UInt8 => decide (x = semicolon)) (l := p)).length_le
      rw [hdrop, length_cons]
      omega
    · have hdrop : nextEntry (c :: p) = nextEntry p := by simp [nextEntry, hc]
      rw [hdrop, length_cons]
      unfold nextEntry
      omega

theorem filter_splitOnP_semicolon (r : Octstr) :
    (r.splitOnP (· = semicolon)).filter (· ≠ []) = prefixEntries (r.dropWhile (· = semicolon)) := by
  induction r with
  | nil => rfl
  | cons c r ih =>
    by_cases hc : c = semicolon
    · simpa [splitOnP_cons_eq_if_modifyHead, hc] using ih
    · obtain ⟨first, rest, hsplit⟩ : ∃ first rest, r.splitOnP (· = semicolon) = first :: rest :=
        exists_cons_of_ne_nil (splitOnP_ne_nil _ _)
      simp [prefixEntries, splitOnP_cons_eq_if_modifyHead, hc, hsplit]

theorem splitOnP_semicolon (p : Octstr) :
    ∃ rest, p.splitOnP (· = semicolon) = firstEntry p :: rest ∧
      rest.filter (· ≠ []) = prefixEntries (nextEntry p) := by
  induction p with
  | nil => exact ⟨[], rfl, rfl⟩
  | cons c p ih =>
    by_cases hc : c = semicolon
    · refine ⟨p.splitOnP (· = semicolon), ?_, ?_⟩
      · simp [splitOnP_cons_eq_if_modifyHead, firstEntry, hc]
      · rw [filter_splitOnP_semicolon]
        simp [nextEntry, hc]
    · obtain ⟨rest, hsplit, hrest⟩ := ih
      refine ⟨rest, ?_, ?_⟩
      · simp [splitOnP_cons_eq_if_modifyHead, firstEntry, hc, hsplit]
      · rw [hrest]
        simp [nextEntry, hc]

theorem prefixEntries_of_ne_nil (hne : p ≠ []) :
    prefixEntries p = firstEntry p :: prefixEntries (nextEntry p) := by
  obtain ⟨rest, hsplit, hrest⟩ := splitOnP_semicolon p
  rw [← hrest]
  simp only [prefixEntries, hsplit, if_neg hne]

theorem prefixLoop_iff (fuel : Nat) (p n : Octstr) (hfuel : p.length ≤ fuel) :
    prefixLoop fuel p n = true ↔ ∃ entry ∈ prefixEntries p, entry <+: n := by
  induction fuel generalizing p with
  | zero =>
    obtain rfl : p = [] := eq_nil_of_length_eq_zero (by omega)
    simp [prefixLoop, prefixEntries]
  | succ fuel ih =>
    by_cases hp : p = []
    · subst hp
      simp [prefixLoop, prefixEntries]
    · obtain ⟨hinner, hleft⟩ := comparePrefix_spec p n
      simp only [prefixEntries_of_ne_nil hp, mem_cons, exists_eq_or_imp]
      rw [prefixLoop, if_neg hp]
      by_cases hfirst : firstEntry p <+: n
      · have hround := hinner.mpr hfirst
        simp only [hfirst, true_or, iff_true]
        by_cases hret : (comparePrefix p n).1 = true
        · rw [if_pos hret]
        · rw [if_neg hret, if_pos (hround.resolve_left hret)]
      · have hround := mt hinner.mp hfirst
        push Not at hround
        rw [if_neg hround.1, if_neg (by tauto), hleft hfirst]
        simp only [hfirst, false_or]
        apply ih
        have hlt := length_nextEntry_lt hp
        omega

theorem doesPrefixMatch_some :
    doesPrefixMatch (some p) (some n) =
      .ok (decide (∃ entry ∈ prefixEntries (octstrGetCstr (some p)),
        entry <+: octstrGetCstr (some n))) := by
  simp only [doesPrefixMatch, Except.ok.injEq]
  rw [Bool.eq_iff_iff, decide_eq_true_iff]
  exact prefixLoop_iff _ _ _ (Nat.le_refl _)

/-- Some entry of the list, and not an empty one, is the beginning of the number. -/
def StartsWithEntry (list number : Octstr) : Prop :=
  ∃ entry ∈ list.splitOnP (· = semicolon), entry ≠ [] ∧ entry <+: number

theorem firstEntry_eq_nil (hne : p ≠ []) : firstEntry p = [] ↔ p.head? = some semicolon := by
  cases p with
  | nil => exact absurd rfl hne
  | cons c p => by_cases hc : c = semicolon <;> simp [firstEntry, hc]

theorem exists_prefixEntries_iff :
    (∃ entry ∈ prefixEntries p, entry <+: n) ↔ p.head? = some semicolon ∨ StartsWithEntry p n := by
  by_cases hne : p = []
  · simp [hne, prefixEntries, StartsWithEntry]
  · obtain ⟨rest, hsplit, hrest⟩ := splitOnP_semicolon p
    rw [prefixEntries_of_ne_nil hne, ← hrest, StartsWithEntry, hsplit, ← firstEntry_eq_nil hne]
    simp only [mem_cons, exists_eq_or_imp, mem_filter, decide_eq_true_eq, and_assoc]
    by_cases hfirst : firstEntry p = []
    · simp [hfirst]
    · simp [hfirst]

/-- **Prefix lists.**  A number matches as it starts with a non-empty entry, unless the list
begins with a semicolon: then every number matches. -/
theorem doesPrefixMatch_startsWith_iff (list number : Octstr) (hlist : 0 ∉ list)
    (hnumber : 0 ∉ number) :
    (doesPrefixMatch (some list) (some number) = .ok true ↔ StartsWithEntry list number) ↔
      (list.head? = some semicolon → StartsWithEntry list number) := by
  rw [doesPrefixMatch_some, octstrGetCstr_eq_iff.mpr hlist, octstrGetCstr_eq_iff.mpr hnumber,
    Except.ok.injEq, decide_eq_true_iff, exists_prefixEntries_iff]
  tauto

theorem doesPrefixMatch_startsWith_plain :
    doesPrefixMatch (some (ascii "1;;2;")) (some (ascii "234")) = .ok true ↔
      StartsWithEntry (ascii "1;;2;") (ascii "234") :=
  (doesPrefixMatch_startsWith_iff _ _ (by decide) (by decide)).mpr fun h => by cases h

theorem doesPrefixMatch_leading_semicolon :
    doesPrefixMatch (some (ascii ";1")) (some (ascii "5")) = .ok true ∧
      ¬ StartsWithEntry (ascii ";1") (ascii "5") := by
  refine ⟨by decide, ?_⟩
  unfold StartsWithEntry
  decide

def patternMatchesIp : Octstr → Octstr → Bool
  | [], ip => ip = []
  | _ :: _, [] => false
  | p :: pattern, c :: ip =>
    if p = c then patternMatchesIp pattern ip
    else if p ≠ 42 then false
    else patternMatchesIp pattern ((c :: ip).dropWhile (· ≠ 46))

def patternListMatchesIp (patternList ip : Octstr) : Bool :=
  (octstrSplit patternList semicolon).any (patternMatchesIp · ip)

def isAllowedIp (allowIp denyIp ip : Option Octstr) : Bool :=
  match ip with
  | none => false
  | some ip =>
    (denyIp.getD []).length = 0 || allowIp.any (patternListMatchesIp · ip) ||
      !patternListMatchesIp (denyIp.getD []) ip

def connectDenied (allowIp ip : Option Octstr) : Bool :=
  match ip with
  | none => true
  | some ip => !patternListMatchesIp (allowIp.getD (ascii "127.0.0.1")) ip

def dotted (components : List Octstr) : Octstr := [46].intercalate components

def patternList (patterns : List (List Octstr)) : Octstr :=
  [semicolon].intercalate (patterns.map dotted)

structure IsPattern (pattern : List Octstr) : Prop where
  nonempty : pattern ≠ []
  component : ∀ c ∈ pattern, c = [42] ∨ c ≠ [] ∧ 42 ∉ c ∧ 46 ∉ c ∧ semicolon ∉ c

structure IsAddress (address : List Octstr) : Prop where
  nonempty : address ≠ []
  component : ∀ c ∈ address, c ≠ [] ∧ 42 ∉ c ∧ 46 ∉ c

def Covers (pattern address : List Octstr) : Prop :=
  Forall₂ (fun c d => c = [42] ∨ c = d) pattern address

section Components
variable {c d p ip : Octstr} {cs ds pattern address : List Octstr}

theorem patternMatchesIp_literal (hc : 42 ∉ c ∧ 46 ∉ c) (hd : 46 ∉ d)
    (hp : p = [] ∨ p.head? = some 46) (hip : ip = [] ∨ ip.head? = some 46) :
    patternMatchesIp (c ++ p) (d ++ ip) = (decide (c = d) && patternMatchesIp p ip) := by
  induction c generalizing d with
  | nil => cases p <;> cases d <;> grind [patternMatchesIp]
  | cons x c ih => cases d <;> cases ip <;> grind [patternMatchesIp]

theorem patternMatchesIp_wildcard (hd : d ≠ [] ∧ 42 ∉ d ∧ 46 ∉ d)
    (hip : ip = [] ∨ ip.head? = some 46) :
    patternMatchesIp (42 :: p) (d ++ ip) = patternMatchesIp p ip := by
  obtain ⟨hne, hstar, hdot⟩ := hd
  have hskip : (d ++ ip).dropWhile (· ≠ 46) = ip := by
    rw [dropWhile_append_of_pos fun x hx => by simpa using ne_of_mem_of_not_mem hx hdot]
    cases ip with
    | nil => rfl
    | cons y ip => simp_all
  cases d with
  | nil => exact absurd rfl hne
  | cons y d =>
    rw [cons_append, patternMatchesIp, if_neg (fun h => hstar (by simp [h])), if_neg (by simp)]
    exact congrArg _ hskip

theorem dotted_cons (c : Octstr) (cs : List Octstr) :
    dotted (c :: cs) = c ++ if cs = [] then [] else 46 :: dotted cs := by
  cases cs <;> simp [dotted, intercalate]

theorem patternMatchesIp_dotted (hp : IsPattern pattern) (ha : IsAddress address) :
    patternMatchesIp (dotted pattern) (dotted address) = true ↔ Covers pattern address := by
  obtain ⟨hne, hp⟩ := hp
  obtain ⟨hne', ha⟩ := ha
  induction pattern generalizing address with
  | nil => exact absurd rfl hne
  | cons c cs ih =>
    cases address with
    | nil => exact absurd rfl hne'
    | cons d ds =>
      have hend : ∀ cs : List Octstr, (if cs = [] then [] else 46 :: dotted cs) = [] ∨
          (if cs = [] then [] else 46 :: dotted cs : Octstr).head? = some 46 := by
        intro cs
        split <;> simp
      have hrest : patternMatchesIp (if cs = [] then [] else 46 :: dotted cs)
          (if ds = [] then [] else 46 :: dotted ds) = true ↔ Covers cs ds := by
        by_cases hcs : cs = []
        · cases ds <;> simp [hcs, Covers, patternMatchesIp]
        · by_cases hds : ds = []
          · cases cs <;> simp_all [Covers, patternMatchesIp]
          · rw [if_neg hcs, if_neg hds, patternMatchesIp]
            exact ih hcs (fun x hx => hp x (mem_cons_of_mem _ hx)) hds
              fun x hx => ha x (mem_cons_of_mem _ hx)
      have hd := ha d mem_cons_self
      rw [dotted_cons, dotted_cons, Covers, forall₂_cons, ← Covers, ← hrest]
      rcases hp c mem_cons_self with rfl | ⟨-, hstar, hdot, -⟩
      · rw [singleton_append, patternMatchesIp_wildcard hd (hend ds)]
        simp
      · rw [patternMatchesIp_literal ⟨hstar, hdot⟩ hd.2.2 (hend cs) (hend ds)]
        have hne : c ≠ [42] := fun h => hstar (by simp [h])
        simp [hne]

theorem mem_dotted {x : UInt8} (h : x ∈ dotted cs) : x = 46 ∨ ∃ c ∈ cs, x ∈ c := by
  induction cs with
  | nil => cases h
  | cons c cs ih =>
    rw [dotted_cons] at h
    split_ifs at h <;> grind

variable {patterns : List (List Octstr)}

theorem octstrSplit_patternList (h : ∀ pattern ∈ patterns, IsPattern pattern) :
    octstrSplit (patternList patterns) semicolon = patterns.map dotted := by
  have hdotted : ∀ text ∈ patterns.map dotted, text ≠ [] ∧ semicolon ∉ text := by
    intro text htext
    obtain ⟨pattern, hmem, rfl⟩ := List.mem_map.mp htext
    obtain ⟨hne, hcomponent⟩ := h pattern hmem
    constructor
    · obtain ⟨c, cs, rfl⟩ := exists_cons_of_ne_nil hne
      have hc : c ≠ [] := by
        rcases hcomponent c mem_cons_self with rfl | hname
        · simp
        · exact hname.1
      simp [dotted_cons, hc]
    · intro hsep
      rcases mem_dotted hsep with heq | ⟨c, hc, hsep⟩
      · cases heq
      · rcases hcomponent c hc with rfl | hname
        · simp [semicolon] at hsep
        · exact hname.2.2.2 hsep
  cases patterns with
  | nil => rfl
  | cons pattern patterns =>
    have hsplit : (patternList (pattern :: patterns)).splitOnP (· = semicolon) =
        (pattern :: patterns).map dotted :=
      splitOn_intercalate semicolon (fun text htext => (hdotted text htext).2) (by simp)
    rw [octstrSplit, hsplit, if_neg]
    exact fun hlast => (hdotted [] (mem_of_getLast? hlast)).1 rfl

theorem patternListMatchesIp_iff (h : ∀ pattern ∈ patterns, IsPattern pattern)
    (ha : IsAddress address) :
    patternListMatchesIp (patternList patterns) (dotted address) = true ↔
      ∃ pattern ∈ patterns, Covers pattern address := by
  rw [patternListMatchesIp, octstrSplit_patternList h, any_map, any_eq_true]
  exact exists_congr fun pattern => and_congr_right fun hmem =>
    patternMatchesIp_dotted (h pattern hmem) ha

end Components

/-- **Address lists.**  An address is allowed if nothing is denied, some allowed pattern covers
it, or no denied one does; it may connect if a given pattern covers it, or the local one. -/
theorem allowed_and_denied_iff {address : List Octstr} (ha : IsAddress address)
    (allow deny : Option (List (List Octstr))) (hallow : ∀ p ∈ allow.getD [], IsPattern p)
    (hdeny : ∀ p ∈ deny.getD [], IsPattern p) :
    (isAllowedIp (allow.map patternList) (deny.map patternList) (some (dotted address)) = true ↔
      deny.getD [] = [] ∨ (∃ p ∈ allow.getD [], Covers p address) ∨
        ¬ ∃ p ∈ deny.getD [], Covers p address) ∧
    (connectDenied (allow.map patternList) (some (dotted address)) = false ↔
      ∃ p ∈ allow.getD [[ascii "127", ascii "0", ascii "0", ascii "1"]], Covers p address) := by
  have hlocal : ∀ p ∈ [[ascii "127", ascii "0", ascii "0", ascii "1"]], IsPattern p := by
    simp only [forall_mem_singleton]
    exact ⟨by simp, by decide⟩
  have hempty : (patternList (deny.getD [])).length = 0 ↔ deny.getD [] = [] := by
    rw [length_eq_zero_iff]
    constructor
    · intro hnil
      have hsplit := octstrSplit_patternList hdeny
      rw [hnil] at hsplit
      exact map_eq_nil_iff.mp hsplit.symm
    · intro hnil
      rw [hnil]
      rfl
  have hget : (deny.map patternList).getD [] = patternList (deny.getD []) := by
    cases deny <;> rfl
  constructor
  · rw [isAllowedIp, hget]
    simp only [Bool.or_eq_true, decide_eq_true_eq, hempty, Bool.not_eq_true',
      ← Bool.not_eq_true, patternListMatchesIp_iff hdeny ha, or_assoc]
    refine or_congr_right (or_congr_left ?_)
    cases allow with
    | none => simp
    | some allow => exact patternListMatchesIp_iff hallow ha
  · rw [connectDenied, Bool.not_eq_false']
    cases allow with
    | none => exact patternListMatchesIp_iff hlocal ha
    | some allow => exact patternListMatchesIp_iff hallow ha

/-- An allow list with a wildcard against a deny list of everything. -/
theorem allowed_and_denied_tens :
    isAllowedIp (some (patternList [[ascii "10", [42]]])) (some (patternList [[[42], [42]]]))
        (some (dotted [ascii "10", ascii "7"])) = true ∧
      connectDenied (some (patternList [[ascii "10", [42]]]))
        (some (dotted [ascii "10", ascii "7"])) = false := by
  have hcovers : ∃ p ∈ [[ascii "10", [42]]], Covers p [ascii "10", ascii "7"] :=
    ⟨_, mem_singleton_self _, .cons (.inr rfl) (.cons (.inl rfl) .nil)⟩
  have haddress : IsAddress [ascii "10", ascii "7"] := ⟨by decide, by decide⟩
  obtain ⟨hallowed, hconnects⟩ := allowed_and_denied_iff haddress (some [[ascii "10", [42]]])
    (some [[[42], [42]]]) (by simpa using ⟨by decide, by decide⟩)
    (by simpa using ⟨by decide, by decide⟩)
  exact ⟨hallowed.mpr (.inr (.inl hcovers)), hconnects.mpr hcovers⟩

/-- A wildcard takes an asterisk for itself, and leaves the rest of the component. -/
theorem connectDenied_asterisk :
    Covers [[42]] [[42, 49]] ∧
      connectDenied (some (patternList [[[42]]])) (some (dotted [[42, 49]])) = true :=
  ⟨.cons (.inl rfl) .nil, by decide⟩

def comma : UInt8 := 44

def compareEntry : (t p : Octstr) → (len : Nat) → Bool × Octstr × Nat
  | [], _, len => (true, [], len)
  | c :: t, [], len => (c = comma ∨ c = semicolon, c :: t, len)
  | c :: t, d :: p, len =>
    if c = comma ∨ c = semicolon then (true, c :: t, len)
    else if c ≠ d then (false, c :: t, len)
    else compareEntry t p (len + 1)

def replacePrefix (official : Octstr) (number : Option Octstr) (len : Nat) :
    Except Failure (Option Octstr) :=
  match number with
  | some number => .ok (some (official ++ number.drop len))
  | none => if len = 0 then .ok (some official) else .error .outside

def normalizeLoop (number : Option Octstr) : (rounds : Nat) → (t official : Octstr) →
    (officialLen : Nat) → (isOfficial : Bool) → Except Failure (Bool × Option Octstr)
  | 0, _, _, _, _ => .ok (false, number)
  | rounds + 1, t, official, officialLen, isOfficial =>
    let (found, rest, len) := compareEntry t (octstrGetCstr number) 0
    if found then
      if isOfficial then .ok (true, number)
      else do
        let kept := if official.head? = some 45 then 0 else officialLen
        let number ← replacePrefix (official.take kept) number len
        return (true, number)
    else
      let entry := rest.takeWhile fun c => c ≠ comma ∧ c ≠ semicolon
      match rest.drop entry.length with
      | [] => .ok (false, number)
      | c :: next =>
        normalizeLoop number rounds next (if c = semicolon then next else official)
          (if isOfficial then len + entry.length else officialLen) (c = semicolon)

def normalizeNumberResult (dialPrefixes : Option Octstr) (number : Option Octstr) :
    Except Failure (Bool × Option Octstr) :=
  match dialPrefixes with
  | none => .ok (false, number)
  | some prefixes =>
    let t := octstrGetCstr (some prefixes)
    if t = [] then .ok (false, number) else normalizeLoop number (t.length + 1) t t 0 true

def normalizeNumber (dialPrefixes : Option Octstr) (number : Option Octstr) :
    Except Failure (Option Octstr) :=
  (normalizeNumberResult dialPrefixes number).map Prod.snd

/-- A number that is there stays there. -/
theorem normalizeLoop_some (number : Octstr) (rounds : Nat) (t official : Octstr)
    (officialLen : Nat) (isOfficial : Bool) : ∃ found result,
      normalizeLoop (some number) rounds t official officialLen isOfficial =
        .ok (found, some result) := by
  induction rounds generalizing t official officialLen isOfficial with
  | zero => exact ⟨_, _, rfl⟩
  | succ rounds ih =>
    unfold normalizeLoop
    dsimp only
    split
    · split
      · exact ⟨_, _, rfl⟩
      · exact ⟨_, _, rfl⟩
    · split
      · exact ⟨_, _, rfl⟩
      · exact ih _ _ _ _

theorem normalizeNumber_some (dialPrefixes : Option Octstr) (number : Octstr) :
    ∃ result, normalizeNumber dialPrefixes (some number) = .ok (some result) := by
  unfold normalizeNumber normalizeNumberResult
  cases dialPrefixes with
  | none => exact ⟨_, rfl⟩
  | some prefixes =>
    dsimp only
    split_ifs
    · exact ⟨_, rfl⟩
    · obtain ⟨found, result, h⟩ := normalizeLoop_some number _ _ _ _ _
      rw [h]
      exact ⟨result, rfl⟩

def groupEntries (group : Octstr × List Octstr) : List (Bool × Octstr) :=
  (true, group.1) :: group.2.map (false, ·)

def separated (entries : List (Bool × Octstr)) : Octstr :=
  entries.flatMap fun e => (if e.1 then semicolon else comma) :: e.2

attribute [simp] separated

/-- The text of the groups: every entry but the first is behind its separator. -/
def dialPrefixes (groups : List (Octstr × List Octstr)) : Octstr :=
  (separated (groups.flatMap groupEntries)).tail

/-- **The specification**: the first entry the number starts with is replaced by the official
prefix of its group. -/
def unify (number : Octstr) : (official : Octstr) → List (Bool × Octstr) → Bool × Octstr
  | _, [] => (false, number)
  | official, (isOfficial, entry) :: entries =>
    if entry.isPrefixOf number then
      (true, if isOfficial then number
        else (if official.head? = some 45 then [] else official) ++ number.drop entry.length)
    else unify number (if isOfficial then entry else official) entries

def IsEntry (entry : Octstr) : Prop := 0 ∉ entry ∧ comma ∉ entry ∧ semicolon ∉ entry

section Entries
variable {e p rest official : Octstr} {number : Octstr} {es : List (Bool × Octstr)}

theorem IsEntry.tail {c : UInt8} (h : IsEntry (c :: e)) :
    ¬ (c = comma ∨ c = semicolon) ∧ IsEntry e := by
  grind [IsEntry]

theorem compareEntry_found (he : IsEntry e) (hrest : ∀ c ∈ rest.head?, c = comma ∨ c = semicolon)
    (len : Nat) (hp : e <+: p) : compareEntry (e ++ rest) p len = (true, rest, len + e.length) := by
  induction e generalizing p len with
  | nil => cases rest <;> cases p <;> simp_all [compareEntry]
  | cons c e ih =>
    obtain ⟨p, rfl⟩ := hp
    obtain ⟨hc, he⟩ := he.tail
    rw [cons_append, cons_append, compareEntry, if_neg hc, if_neg (not_not.mpr rfl),
      ih he (len + 1) (prefix_append e p), length_cons]
    congr 2
    omega

theorem compareEntry_missed (he : IsEntry e) (len : Nat) (hp : ¬ e <+: p) :
    ∃ done left, e = done ++ left ∧ left ≠ [] ∧
      compareEntry (e ++ rest) p len = (false, left ++ rest, len + done.length) := by
  induction e generalizing p len with
  | nil => exact absurd nil_prefix hp
  | cons c e ih =>
    obtain ⟨hc, he⟩ := he.tail
    cases p with
    | nil => exact ⟨[], c :: e, rfl, cons_ne_nil _ _, by simp [compareEntry, not_or.mp hc]⟩
    | cons d p =>
      by_cases hd : c = d
      · subst hd
        obtain ⟨done, left, rfl, hleft, hcompare⟩ :=
          ih he (len + 1) fun h => hp (cons_prefix_cons.mpr ⟨rfl, h⟩)
        refine ⟨c :: done, left, rfl, hleft, ?_⟩
        rw [cons_append, compareEntry, if_neg hc, if_neg (not_not.mpr rfl), hcompare, length_cons]
        congr 2
        omega
      · exact ⟨[], c :: e, rfl, cons_ne_nil _ _, by simp [compareEntry, hc, hd]⟩

theorem isPrefixOf_cstr (he : IsEntry e) (number : Octstr) :
    e.isPrefixOf number = true ↔ e <+: octstrGetCstr (some number) := by
  rw [List.isPrefixOf_iff_prefix]
  constructor
  · rintro ⟨rest, rfl⟩
    have hall : ∀ c ∈ e, decide (c ≠ 0) = true := fun c hc => by
      simpa using ne_of_mem_of_not_mem hc he.1
    rw [octstrGetCstr, takeWhile_append_of_pos hall]
    exact prefix_append _ _
  · exact fun h => h.trans (List.takeWhile_prefix _)

theorem separated_head (es : List (Bool × Octstr)) :
    ∀ c ∈ (separated es).head?, c = comma ∨ c = semicolon := by
  cases es with
  | nil => simp
  | cons e es => cases h : e.1 <;> simp [h]

theorem length_le_separated (es : List (Bool × Octstr)) : es.length ≤ (separated es).length := by
  induction es with
  | nil => rfl
  | cons e es ih =>
    simp only [separated, flatMap_cons, length_append, length_cons] at ih ⊢
    omega

theorem zero_not_mem_separated (hes : ∀ e ∈ es, IsEntry e.2) : 0 ∉ separated es := by
  intro hzero
  obtain ⟨e, he, hzero⟩ := mem_flatMap.mp hzero
  rcases mem_cons.mp hzero with hsep | hzero
  · cases h : e.1 <;> simp [h, comma, semicolon] at hsep
  · exact (hes e he).1 hzero

theorem head?_append_separated (official : Octstr) (es : List (Bool × Octstr)) :
    (official ++ separated es).head? = some 45 ↔ official.head? = some 45 := by
  cases official with
  | cons c official => rfl
  | nil =>
    cases es with
    | nil => simp
    | cons e es => cases h : e.1 <;> simp [h, comma, semicolon]

theorem takeWhile_entry (he : IsEntry e) (es : List (Bool × Octstr)) :
    (e ++ separated es).takeWhile (fun c => c ≠ comma ∧ c ≠ semicolon) = e := by
  have hall : ∀ c ∈ e, decide (c ≠ comma ∧ c ≠ semicolon) = true := by
    grind [IsEntry]
  rw [takeWhile_append_of_pos hall]
  cases es with
  | nil => simp
  | cons next es => cases h : next.1 <;> simp [h]

theorem normalizeLoop_unify {isOfficial : Bool} {text : Octstr} {officialLen rounds : Nat}
    (he : IsEntry e) (hes : ∀ e ∈ es, IsEntry e.2)
    (htext : ∃ es', text = (if isOfficial then e else official) ++ separated es')
    (hlen : isOfficial = false → officialLen = official.length) (hrounds : es.length < rounds) :
    normalizeLoop (some number) rounds (e ++ separated es) text officialLen isOfficial =
      .ok ((unify number official ((isOfficial, e) :: es)).1,
        some (unify number official ((isOfficial, e) :: es)).2) := by
  induction rounds generalizing e es isOfficial text officialLen official with
  | zero => omega
  | succ rounds ih =>
    have hfound := isPrefixOf_cstr he number
    rw [normalizeLoop, unify]
    by_cases hp : e <+: octstrGetCstr (some number)
    · rw [compareEntry_found he (separated_head es) 0 hp, if_pos (hfound.mpr hp)]
      cases isOfficial with
      | true => rfl
      | false =>
        obtain ⟨es', rfl⟩ := htext
        simp only [hlen rfl, Bool.false_eq_true, if_false, if_true, head?_append_separated,
          replacePrefix, ok_bind, pure_eq_ok, Nat.zero_add]
        split <;> simp
    · obtain ⟨done, left, rfl, -, hcompare⟩ :
          ∃ done left, e = done ++ left ∧ left ≠ [] ∧ compareEntry (e ++ separated es)
            (octstrGetCstr (some number)) 0 = (false, left ++ separated es, 0 + done.length) :=
        compareEntry_missed he 0 hp
      have hleft : IsEntry left := by grind [IsEntry]
      rw [hcompare, if_neg (mt hfound.mp hp)]
      simp only [Bool.false_eq_true, if_false, takeWhile_entry hleft, drop_left]
      cases es with
      | nil => rfl
      | cons next es =>
        obtain ⟨isNext, entry⟩ := next
        have hentry := hes _ mem_cons_self
        have hrest : ∀ e ∈ es, IsEntry e.2 := fun e he => hes e (mem_cons_of_mem _ he)
        have hnext : separated ((isNext, entry) :: es) =
          (if isNext then semicolon else comma) :: (entry ++ separated es) := rfl
        have hflag : decide ((if isNext then semicolon else comma) = semicolon) = isNext := by
          cases isNext <;> rfl
        rw [hnext]
        dsimp only
        rw [hflag]
        refine ih hentry hrest ?_ (fun _ => ?_) (Nat.lt_of_succ_lt_succ hrounds)
        · cases isNext with
          | true => exact ⟨es, rfl⟩
          | false => exact htext
        · cases isOfficial with
          | true => simp
          | false => exact hlen rfl

end Entries

/-- **Numbers are normalized** as specified, if there is a dial prefix at all; an empty text leaves
every number as it is. -/
theorem normalizeNumberResult_unify (groups : List (Octstr × List Octstr))
    (hentries : ∀ e ∈ groups.flatMap groupEntries, IsEntry e.2) (hne : dialPrefixes groups ≠ [])
    (number : Octstr) :
    normalizeNumberResult (some (dialPrefixes groups)) (some number) =
      .ok ((unify number [] (groups.flatMap groupEntries)).1,
        some (unify number [] (groups.flatMap groupEntries)).2) ∧
    normalizeNumberResult (some []) (some number) = .ok (false, some number) := by
  refine ⟨?_, rfl⟩
  cases groups with
  | nil => exact absurd rfl hne
  | cons group groups =>
    obtain ⟨es, hes⟩ : ∃ es, (group :: groups).flatMap groupEntries = (true, group.1) :: es :=
      ⟨_, rfl⟩
    have htext : dialPrefixes (group :: groups) = group.1 ++ separated es := by
      rw [dialPrefixes, hes]
      rfl
    rw [htext] at hne ⊢
    rw [hes] at hentries ⊢
    obtain ⟨hfirst, hrest⟩ := forall_mem_cons.mp hentries
    have hzero : 0 ∉ group.1 ++ separated es := fun hzero =>
      (mem_append.mp hzero).elim hfirst.1 (zero_not_mem_separated hrest)
    have hrounds := length_le_separated es
    rw [normalizeNumberResult, octstrGetCstr_eq_iff.mpr hzero, if_neg hne, length_append]
    exact normalizeLoop_unify hfirst hrest ⟨es, rfl⟩ (fun h => by cases h) (by omega)

theorem normalizeNumberResult_unify_replaces :
    normalizeNumberResult (some (dialPrefixes [(ascii "+", [ascii "00"])])) (some (ascii "0012")) =
      .ok (true, some (ascii "+12")) :=
  (normalizeNumberResult_unify _ (by unfold IsEntry; decide) (by decide) _).1

/-- Nothing is found in an empty text, although its only prefix begins every number. -/
theorem normalizeNumberResult_empty :
    dialPrefixes [([], [])] = [] ∧ unify (ascii "5") [] (groupEntries ([], [])) =
      (true, ascii "5") ∧ normalizeNumberResult (some []) (some (ascii "5")) =
        .ok (false, some (ascii "5")) := by
  decide

end Kannel
