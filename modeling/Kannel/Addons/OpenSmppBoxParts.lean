import Kannel.Gwlib.Dict
import Kannel.Gw.Msg
import Kannel.Lib.Avoids

/-!
# Long messages of the clients of opensmppbox

`check_multipart` collects the segments of all clients in one table, keyed by receiver and
reference, and hands them to `catenate_msg` when as many have come as the header of the last one
announces.  `catenate_msg` goes round the list again and again, looking for the next part number,
until all parts are joined or one round has found nothing.

`catenateMsg_joins` is about that search alone.  `checkMultipart_orderly` is about the table: with
the abstract `Pending`, which keeps the segments of each message apart by client, sender, receiver,
reference and total, the concrete table agrees as long as every segment is `Orderly`.
-/

namespace Kannel
open List

structure Esme where
  number : Nat
  boxcId : Option Octstr
  routeToSmsc : Sms → Option Octstr

/-- An octet of the user data header; where there is none `octstr_get_char` gives a number that no
part has. -/
def udhNumber (msg : Sms) (pos : Nat) : Nat := ((msg.udhdata.getD []).getD pos 0).toNat

/-- The header of six octets with a concatenation element, which alone `check_multipart` treats as
a segment. -/
def hasSegmentHeader (msg : Sms) : Bool :=
  (msg.udhdata.getD []).length = 6 ∧ (msg.udhdata.getD [])[1]? = some 0

/-- A message a client has submitted, and the identifier its copy will get. -/
structure Submitted where
  esme : Esme
  msg : Sms
  id : Uuid

def Submitted.partno (a : Submitted) : Nat := udhNumber a.msg 5

def Submitted.total (a : Submitted) : Nat := udhNumber a.msg 4

def Submitted.text (a : Submitted) : Octstr := a.msg.msgdata.getD []

/-- The loop of `catenate_msg`: `current` is the position looked at, from one on, and `max` counts
the positions looked at since the last part was found. -/
def catenateLoop (list : List Submitted) (total : Nat) :
    (fuel current partno max : Nat) → Octstr → Option (Except Failure (Option Octstr))
  | 0, _, _, _, _ => none
  | fuel+1, current, partno, max, msgdata =>
    if max < total then
      let next := (if current ≥ total then 0 else current) + 1
      match list[current - 1]? with
      | some segment =>
        if segment.msg.udhdata = none then some (.error .assertion)
        else if segment.partno = partno then
          let msgdata := msgdata ++ segment.text
          if partno + 1 > total then some (.ok (some msgdata))
          else catenateLoop list total fuel next (partno + 1) (0 + 1) msgdata
        else catenateLoop list total fuel next partno (max + 1) msgdata
      | none => catenateLoop list total fuel next partno (max + 1) msgdata
    else some (.ok none)

def catenateMsg (list : List Submitted) (total : Nat) (id : Uuid) : Except Failure (Option Sms) :=
  match list.head? with
  | none => .error .outside
  | some first =>
    if first.msg.msgdata = none then .error .assertion
    else do
      let found ← (catenateLoop list total (total * total + 1) 1 1 0 []).getD (.ok none)
      return found.map fun msgdata =>
        { first.msg with id := id, udhdata := none, msgdata := some msgdata }

instance one_neZero : NeZero (1 * 2) := ⟨by decide⟩

abbrev ListDict := Dict (List Submitted) (1 * 2)

def segmentKey (receiver : Option Octstr) (reference : Nat) : Octstr :=
  formatString receiver ++ [45] ++ formatDecimal reference

inductive Multipart
  | single | waiting | unassembled
  | whole (msg : Sms)

def checkMultipart (disabled : Bool) (listDict : ListDict) (a : Submitted) :
    Except Failure (Multipart × ListDict) :=
  if disabled = false ∧ hasSegmentHeader a.msg then
    let key := segmentKey a.msg.receiver (udhNumber a.msg 3)
    let partsList := (dictGet listDict key).getD []
    if partsList.length + 1 = a.total then do
      let msg2 ← catenateMsg (partsList ++ [a]) a.total a.id
      let listDict := dictPut listDict key none
      match msg2 with
      | none => return (.unassembled, listDict)
      | some msg2 =>
        return (.whole { msg2 with
          smscId := a.esme.routeToSmsc msg2, boxcId := a.esme.boxcId }, listDict)
    else return (.waiting, dictPut listDict key (some (partsList ++ [a])))
  else return (.single, listDict)

structure MessageKey where
  esme : Nat
  sender : Option Octstr
  receiver : Option Octstr
  reference : Nat
  total : Nat
  deriving DecidableEq

def Submitted.key (a : Submitted) : MessageKey :=
  ⟨a.esme.number, a.msg.sender, a.msg.receiver, udhNumber a.msg 3, a.total⟩

def MessageKey.entry (key : MessageKey) : Octstr := segmentKey key.receiver key.reference

abbrev Pending := MessageKey → List Submitted

def Complete (total : Nat) (segments : List Submitted) : Prop :=
  ∀ n, 1 ≤ n → n ≤ total → ∃ a ∈ segments, a.partno = n

open Classical in
noncomputable def Pending.arrive (pending : Pending) (a : Submitted) : Pending :=
  Function.update pending a.key
    (if Complete a.total (pending a.key ++ [a]) then [] else pending a.key ++ [a])

noncomputable def pendingAfter (arrivals : List Submitted) : Pending :=
  arrivals.foldl Pending.arrive fun _ => []

/-- A segment with a text, numbered from one to the total, that has not come before while no
other message is collected in its place. -/
structure Orderly (pending : Pending) (a : Submitted) : Prop where
  header : hasSegmentHeader a.msg = true
  text : a.msg.msgdata ≠ none
  number : 1 ≤ a.partno ∧ a.partno ≤ a.total
  fresh : ∀ b ∈ pending a.key, b.partno ≠ a.partno
  alone : ∀ key, key ≠ a.key → key.entry = a.key.entry → pending key = []

def AllOrderly (arrivals : List Submitted) : Prop :=
  ∀ before a after, arrivals = before ++ a :: after → Orderly (pendingAfter before) a

def tableAfter (arrivals : List Submitted) : Except Failure ListDict :=
  arrivals.foldlM (fun listDict a => (checkMultipart false listDict a).map Prod.snd)
    (dictCreate (List Submitted) 1)

/-- The text is that of segments of one message, all of which have come, in their order. -/
def RightlyWhole (arrivals : List Submitted) (key : MessageKey) (whole : Sms) : Prop :=
  ∃ segments : List Submitted, (∀ a ∈ segments, a ∈ arrivals ∧ a.key = key) ∧
    segments.map Submitted.partno = range' 1 key.total ∧
    whole.msgdata = some (segments.flatMap Submitted.text)

section Catenate
variable {list : List Submitted} {total : Nat}
variable {arrivals segments : List Submitted} {a : Submitted}

def wrapped (total pos : Nat) : Nat := if pos < total then pos else pos - total

/-- The last `max` positions before `pos` have been looked at in vain. -/
def Missed (list : List Submitted) (total pos partno max : Nat) : Prop :=
  ∀ d < max, ∀ a, list[wrapped total (pos + total - 1 - d)]? = some a → a.partno ≠ partno

variable {pos partno max : Nat}

theorem Missed.next {segment : Submitted} (hpos : pos < total) (hmax : max < total)
    (h : Missed list total pos partno max) (hsegment : list[pos]? = some segment)
    (hother : segment.partno ≠ partno) :
    Missed list total (wrapped total (pos + 1)) partno (max + 1) := by
  intro d hd a ha
  cases d with
  | zero =>
    have hback : wrapped total (wrapped total (pos + 1) + total - 1 - 0) = pos := by
      unfold wrapped
      split_ifs <;> omega
    rw [hback, hsegment] at ha
    cases ha
    exact hother
  | succ d =>
    have hback : wrapped total (wrapped total (pos + 1) + total - 1 - (d + 1)) =
        wrapped total (pos + total - 1 - d) := by
      unfold wrapped
      split_ifs <;> omega
    exact h d (by omega) a (hback ▸ ha)

theorem Missed.all (hlength : list.length = total) (hpos : pos < total) (hmax : total ≤ max)
    (h : Missed list total pos partno max) : ∀ a ∈ list, a.partno ≠ partno := by
  intro a ha
  obtain ⟨j, hj⟩ := mem_iff_getElem?.mp ha
  have hlt : j < total := hlength ▸ (List.getElem?_eq_some_iff.mp hj).1
  obtain ⟨d, hd, hback⟩ : ∃ d < max, wrapped total (pos + total - 1 - d) = j := by
    unfold wrapped
    by_cases hbefore : j < pos
    · exact ⟨pos - 1 - j, by omega, by split_ifs <;> omega⟩
    · exact ⟨pos + total - 1 - j, by omega, by split_ifs <;> omega⟩
  exact h d hd a (hback ▸ hj)

/-- The search ends.  If it gives up, some number is missing; if not, it has joined parts of the
list with all the numbers from `partno` on. -/
theorem catenateLoop_finds (hlength : list.length = total)
    (hudh : ∀ a ∈ list, a.msg.udhdata ≠ none) {fuel pos partno max : Nat} (msgdata : Octstr)
    (hpos : pos < total) (hlast : partno ≤ total)
    (hmissed : Missed list total pos partno max)
    (hfuel : (total - partno) * total + (total - max) < fuel) :
    ∃ found, catenateLoop list total fuel (pos + 1) partno max msgdata = some (.ok found) ∧
      (found = none → ∃ n, partno ≤ n ∧ n ≤ total ∧ ∀ a ∈ list, a.partno ≠ n) ∧
      ∀ whole, found = some whole → ∃ ordered ⊆ list,
        ordered.map Submitted.partno = range' partno (total + 1 - partno) ∧
          whole = msgdata ++ ordered.flatMap Submitted.text := by
  induction fuel generalizing pos partno max msgdata with
  | zero => omega
  | succ fuel ih =>
    have hnext : (if pos + 1 ≥ total then 0 else pos + 1) + 1 = wrapped total (pos + 1) + 1 := by
      unfold wrapped
      split_ifs <;> omega
    have hnextPos : wrapped total (pos + 1) < total := by
      unfold wrapped
      split_ifs <;> omega
    rw [catenateLoop, Nat.add_sub_cancel, hnext]
    by_cases hmax : max < total
    · obtain ⟨segment, hsegment⟩ : ∃ segment, list[pos]? = some segment :=
        ⟨_, List.getElem?_eq_getElem (by omega)⟩
      have hmem := mem_of_getElem? hsegment
      rw [if_pos hmax, hsegment]
      dsimp only
      rw [if_neg (hudh segment hmem)]
      split_ifs with hfound hend
      · have hone : total + 1 - partno = 1 := by omega
        refine ⟨_, rfl, nofun, ?_⟩
        intro whole hwhole
        cases hwhole
        exact ⟨[segment], by simpa using hmem, by simp [hone, hfound], by simp⟩
      · obtain ⟨left, hleft⟩ : ∃ left, total - partno = left + 1 :=
          ⟨total - partno - 1, by omega⟩
        have hrest : total - (partno + 1) = left := by omega
        rw [hleft, Nat.succ_mul] at hfuel
        have hmissed' : Missed list total (wrapped total (pos + 1)) (partno + 1) (0 + 1) :=
          Missed.next hpos (by omega) (fun d hd => absurd hd (by omega)) hsegment (by omega)
        obtain ⟨found, hloop, hnone, hsome⟩ := ih (msgdata ++ segment.text) hnextPos (by omega)
          hmissed' (by rw [hrest]; omega)
        refine ⟨found, hloop, ?_, ?_⟩
        · intro h
          obtain ⟨n, hlo, hhi, hall⟩ := hnone h
          exact ⟨n, by omega, hhi, hall⟩
        · intro whole h
          obtain ⟨ordered, hsub, hnumbers, rfl⟩ := hsome whole h
          have hcount : total + 1 - partno = total + 1 - (partno + 1) + 1 := by omega
          refine ⟨segment :: ordered, cons_subset.mpr ⟨hmem, hsub⟩, ?_, by simp⟩
          rw [map_cons, hnumbers, hfound, hcount, range'_succ]
      · exact ih msgdata hnextPos hlast (hmissed.next hpos hmax hsegment hfound) (by omega)
    · rw [if_neg hmax]
      exact ⟨none, rfl, fun _ => ⟨partno, le_rfl, hlast,
        hmissed.all hlength hpos (Nat.not_lt.mp hmax)⟩, nofun⟩

theorem rounds_suffice (h : 0 < total) : (total - 1) * total + (total - 0) < total * total + 1 := by
  obtain ⟨n, rfl⟩ : ∃ n, total = n + 1 := ⟨total - 1, by omega⟩
  rw [Nat.add_sub_cancel, Nat.succ_mul]
  omega

theorem perm_range_iff (hlength : list.length = total) :
    (list.map Submitted.partno).Perm (range' 1 total) ↔ Complete total list := by
  constructor
  · intro hperm n hlo hhi
    exact List.mem_map.mp (hperm.mem_iff.mpr (mem_range'_1.mpr ⟨hlo, by omega⟩))
  · intro hcomplete
    have hsub : range' 1 total ⊆ list.map Submitted.partno := by
      intro n hn
      obtain ⟨hlo, hhi⟩ := mem_range'_1.mp hn
      exact List.mem_map.mpr (hcomplete n hlo (by omega))
    refine ((subperm_of_subset nodup_range' hsub).perm_of_length_le ?_).symm
    rw [length_map, length_range', hlength]

theorem catenateLoop_joins (hlength : list.length = total)
    (hudh : ∀ a ∈ list, a.msg.udhdata ≠ none) (hpos : 0 < total) :
    ∃ found, catenateLoop list total (total * total + 1) 1 1 0 [] = some (.ok found) ∧
      ((list.map Submitted.partno).Perm (range' 1 total) → ∃ ordered : List Submitted,
        ordered.Perm list ∧ ordered.map Submitted.partno = range' 1 total ∧
          found = some (ordered.flatMap Submitted.text)) ∧
      (¬ (list.map Submitted.partno).Perm (range' 1 total) → found = none) := by
  obtain ⟨found, hloop, hnone, hsome⟩ := catenateLoop_finds hlength hudh [] hpos hpos
    (fun d hd => absurd hd (Nat.not_lt_zero d)) (rounds_suffice hpos)
  refine ⟨found, hloop, ?_⟩
  rw [perm_range_iff hlength]
  cases found with
  | none =>
    obtain ⟨n, hlo, hhi, hall⟩ := hnone rfl
    refine ⟨fun hcomplete => ?_, fun _ => rfl⟩
    obtain ⟨a, ha, hnumber⟩ := hcomplete n hlo hhi
    exact absurd hnumber (hall a ha)
  | some whole =>
    obtain ⟨ordered, hsub, hnumbers, rfl⟩ := hsome whole rfl
    rw [Nat.add_sub_cancel] at hnumbers
    have hcomplete : Complete total list := by
      intro n hlo hhi
      have hmem : n ∈ ordered.map Submitted.partno := hnumbers ▸ mem_range'_1.mpr ⟨hlo, by omega⟩
      obtain ⟨a, ha, hnumber⟩ := List.mem_map.mp hmem
      exact ⟨a, hsub ha, hnumber⟩
    have hnodup : ordered.Nodup := by
      apply Nodup.of_map Submitted.partno
      rw [hnumbers]
      exact nodup_range'
    have hcount : ordered.length = total := by
      have := congrArg List.length hnumbers
      rwa [length_map, length_range'] at this
    refine ⟨fun _ => ⟨ordered, ?_, hnumbers, rfl⟩, fun hnot => absurd hcomplete hnot⟩
    exact (subperm_of_subset hnodup hsub).perm_of_length_le (by rw [hcount, hlength])

theorem catenateMsg_of_loop {first : Submitted} {found : Option Octstr} (id : Uuid)
    (hfirst : list.head? = some first) (htext : first.msg.msgdata ≠ none)
    (hloop : catenateLoop list total (total * total + 1) 1 1 0 [] = some (.ok found)) :
    catenateMsg list total id = .ok (found.map fun msgdata =>
      { first.msg with id := id, udhdata := none, msgdata := some msgdata }) := by
  rw [catenateMsg, hfirst]
  dsimp only
  rw [if_neg htext, hloop]
  rfl

/-- **The parts are joined in the order of their numbers**, whatever order they come in; without
all the numbers the answer is `NULL`.  Every message must have a header, and the first one a
text. -/
theorem catenateMsg_joins {first : Submitted} (id : Uuid) (hlength : list.length = total)
    (hfirst : list.head? = some first) (htext : first.msg.msgdata ≠ none)
    (hudh : ∀ a ∈ list, a.msg.udhdata ≠ none) :
    ∃ found, catenateLoop list total (total * total + 1) 1 1 0 [] = some (.ok found) ∧
      catenateMsg list total id = .ok (found.map fun msgdata =>
        { first.msg with id := id, udhdata := none, msgdata := some msgdata }) ∧
      ((list.map Submitted.partno).Perm (range' 1 total) → ∃ ordered : List Submitted,
        ordered.Perm list ∧ ordered.map Submitted.partno = range' 1 total ∧
          found = some (ordered.flatMap Submitted.text)) ∧
      (¬ (list.map Submitted.partno).Perm (range' 1 total) → found = none) := by
  have hpos : 0 < total := hlength ▸ length_pos_of_mem (mem_of_head? hfirst)
  obtain ⟨found, hloop, hjoined⟩ := catenateLoop_joins hlength hudh hpos
  exact ⟨found, hloop, catenateMsg_of_loop id hfirst htext hloop, hjoined⟩

end Catenate

/-- Segments of one message, all with different numbers. -/
structure Collected (key : MessageKey) (segments : List Submitted) : Prop where
  same : ∀ a ∈ segments, a.key = key
  number : ∀ a ∈ segments, 1 ≤ a.partno ∧ a.partno ≤ key.total
  text : ∀ a ∈ segments, a.msg.msgdata ≠ none
  header : ∀ a ∈ segments, a.msg.udhdata ≠ none
  once : (segments.map Submitted.partno).Nodup

theorem udhdata_of_hasSegmentHeader {msg : Sms} (h : hasSegmentHeader msg = true) :
    msg.udhdata ≠ none := by
  intro hnone
  simp [hasSegmentHeader, hnone] at h

theorem Collected.append {pending : Pending} (h : Collected a.key (pending a.key))
    (ha : Orderly pending a) : Collected a.key (pending a.key ++ [a]) := by
  have hall : ∀ {P : Submitted → Prop}, (∀ b ∈ pending a.key, P b) → P a →
      ∀ b ∈ pending a.key ++ [a], P b := by
    intro P hold hnew b hb
    rcases mem_append.mp hb with hb | hb
    · exact hold b hb
    · exact mem_singleton.mp hb ▸ hnew
  refine ⟨hall h.same rfl, hall h.number ha.number, hall h.text ha.text,
    hall h.header (udhdata_of_hasSegmentHeader ha.header), ?_⟩
  rw [map_append, nodup_append]
  refine ⟨h.once, nodup_singleton _, ?_⟩
  intro n hn m hm heq
  obtain ⟨b, hb, rfl⟩ := List.mem_map.mp hn
  obtain rfl := mem_singleton.mp hm
  exact ha.fresh b hb heq

theorem Collected.complete_iff {key : MessageKey} (h : Collected key segments) :
    Complete key.total segments ↔ segments.length = key.total := by
  have hsub : segments.map Submitted.partno ⊆ range' 1 key.total := by
    intro n hn
    obtain ⟨a, ha, rfl⟩ := List.mem_map.mp hn
    have hnumber := h.number a ha
    exact mem_range'_1.mpr ⟨hnumber.1, by omega⟩
  have hle := (subperm_of_subset h.once hsub).length_le
  rw [length_map, length_range'] at hle
  constructor
  · intro hcomplete
    have hback : range' 1 key.total ⊆ segments.map Submitted.partno := by
      intro n hn
      obtain ⟨hlo, hhi⟩ := mem_range'_1.mp hn
      obtain ⟨a, ha, heq⟩ := hcomplete n hlo (by omega)
      exact List.mem_map.mpr ⟨a, ha, heq⟩
    have hge := (subperm_of_subset nodup_range' hback).length_le
    rw [length_map, length_range'] at hge
    omega
  · intro hlength n hlo hhi
    have hperm := (subperm_of_subset h.once hsub).perm_of_length_le
      (by rw [length_map, length_range', hlength])
    have hmem := hperm.mem_iff.mpr (mem_range'_1.mpr ⟨hlo, by omega⟩)
    exact List.mem_map.mp hmem

theorem Collected.catenateMsg {key : MessageKey} (h : Collected key segments)
    (hlength : segments.length = key.total) (hpos : 0 < key.total) (id : Uuid) :
    ∃ (whole : Sms) (ordered : List Submitted),
      catenateMsg segments key.total id = .ok (some whole) ∧
      (∀ a ∈ ordered, a ∈ segments) ∧ ordered.map Submitted.partno = range' 1 key.total ∧
      whole.msgdata = some (ordered.flatMap Submitted.text) := by
  obtain ⟨first, rest, rfl⟩ := exists_cons_of_length_pos (hlength ▸ hpos)
  have hperm := (perm_range_iff hlength).mpr (h.complete_iff.mpr hlength)
  obtain ⟨found, hloop, hjoined, -⟩ := catenateLoop_joins hlength h.header hpos
  obtain ⟨ordered, hordered, hnumbers, rfl⟩ := hjoined hperm
  have hmsg := catenateMsg_of_loop id rfl (h.text first mem_cons_self) hloop
  exact ⟨_, ordered, hmsg, fun a => hordered.mem_iff.mp, hnumbers, rfl⟩

structure Matches (arrivals : List Submitted) (pending : Pending) (listDict : ListDict) :
    Prop where
  collected : ∀ key, Collected key (pending key)
  arrived : ∀ key, ∀ a ∈ pending key, a ∈ arrivals
  found : ∀ key, pending key ≠ [] → dictGet listDict key.entry = some (pending key)
  alone : ∀ key key', pending key ≠ [] → key'.entry = key.entry → key' ≠ key → pending key' = []
  absent : ∀ entry segments, dictGet listDict entry = some segments →
    ∃ key, key.entry = entry ∧ pending key = segments ∧ segments ≠ []

theorem matches_nil : Matches [] (fun _ => []) (dictCreate (List Submitted) 1) where
  collected key := ⟨by simp, by simp, by simp, by simp, nodup_nil⟩
  arrived key a ha := by cases ha
  found key hne := absurd rfl hne
  alone key key' hne := absurd rfl hne
  absent entry segments h := by
    rw [dictGet_dictCreate] at h
    cases h

section Step
variable {pending : Pending} {listDict : ListDict}

section Pending
variable (h : Matches arrivals pending listDict)
include h

theorem Matches.partsList (ha : Orderly pending a) :
    (dictGet listDict a.key.entry).getD [] = pending a.key := by
  cases hget : dictGet listDict a.key.entry with
  | none =>
    by_contra hne
    have hfound := h.found a.key fun hnil => hne hnil.symm
    rw [hget] at hfound
    cases hfound
  | some segments =>
    obtain ⟨key, hentry, rfl, hne⟩ := h.absent _ _ hget
    by_cases hkey : key = a.key
    · rw [hkey, Option.getD_some]
    · exact absurd (ha.alone key hkey hentry) hne

theorem Matches.update (ha : Orderly pending a) {listDict' : ListDict}
    (hcollected : Collected a.key segments) (harrived : ∀ b ∈ segments, b ∈ arrivals ++ [a])
    (hget : ∀ entry, dictGet listDict' entry =
      if entry = a.key.entry then (if segments = [] then none else some segments)
      else dictGet listDict entry) :
    Matches (arrivals ++ [a]) (Function.update pending a.key segments) listDict' := by
  have hself : Function.update pending a.key segments a.key = segments := Function.update_self ..
  have hother : ∀ key, key ≠ a.key → Function.update pending a.key segments key = pending key :=
    fun key hkey => Function.update_of_ne hkey ..
  have hempty : ∀ key, key ≠ a.key → key.entry = a.key.entry →
      Function.update pending a.key segments key = [] :=
    fun key hkey hentry => (hother key hkey).trans (ha.alone key hkey hentry)
  refine ⟨fun key => ?_, fun key b hb => ?_, fun key hne => ?_, fun key key' hne hentry hkey' => ?_,
    fun entry found hfound => ?_⟩
  · by_cases hkey : key = a.key
    · rw [hkey, hself]
      exact hcollected
    · rw [hother key hkey]
      exact h.collected key
  · by_cases hkey : key = a.key
    · rw [hkey, hself] at hb
      exact harrived b hb
    · rw [hother key hkey] at hb
      exact mem_append_left _ (h.arrived key b hb)
  · rw [hget]
    by_cases hkey : key = a.key
    · rw [hkey, hself] at hne ⊢
      rw [if_pos rfl, if_neg hne]
    · have hentry : key.entry ≠ a.key.entry := fun hentry => hne (hempty key hkey hentry)
      rw [hother key hkey] at hne ⊢
      rw [if_neg hentry]
      exact h.found key hne
  · by_cases hkey : key = a.key
    · exact hempty key' (hkey ▸ hkey') (hkey ▸ hentry)
    · have hentry' : key.entry ≠ a.key.entry := fun hentry => hne (hempty key hkey hentry)
      have hne' : key' ≠ a.key := fun heq => hentry' (by rw [← hentry, heq])
      rw [hother key hkey] at hne
      rw [hother key' hne']
      exact h.alone key key' hne hentry hkey'
  · rw [hget] at hfound
    split_ifs at hfound with hentry hnil
    · obtain rfl := Option.some.inj hfound
      exact ⟨a.key, hentry.symm, hself, hnil⟩
    · obtain ⟨key, hkeyEntry, hpending, hne⟩ := h.absent entry found hfound
      have hkey : key ≠ a.key := fun heq => hentry (by rw [← hkeyEntry, heq])
      exact ⟨key, hkeyEntry, (hother key hkey).trans hpending, hne⟩

theorem Matches.checkMultipart (ha : Orderly pending a) :
    ∃ outcome listDict', checkMultipart false listDict a = .ok (outcome, listDict') ∧
      Matches (arrivals ++ [a]) (pending.arrive a) listDict' ∧
      (∀ whole, outcome = .whole whole → RightlyWhole (arrivals ++ [a]) a.key whole) ∧
      (Complete a.total (pending a.key ++ [a]) → ∃ whole, outcome = .whole whole) := by
  have hcollected := (h.collected a.key).append ha
  have harrived : ∀ b ∈ pending a.key ++ [a], b ∈ arrivals ++ [a] := by
    intro b hb
    rcases mem_append.mp hb with hb | hb
    · exact mem_append_left _ (h.arrived a.key b hb)
    · exact mem_append_right _ hb
  have hcount : (pending a.key).length + 1 = a.total ↔ Complete a.total (pending a.key ++ [a]) := by
    rw [← length_singleton (a := a), ← length_append]
    exact hcollected.complete_iff.symm
  have hparts : (dictGet listDict (segmentKey a.msg.receiver (udhNumber a.msg 3))).getD [] =
    pending a.key := h.partsList ha
  have hguard : false = false ∧ hasSegmentHeader a.msg = true := ⟨rfl, ha.header⟩
  rw [Kannel.checkMultipart, if_pos hguard]
  dsimp only
  rw [hparts]
  by_cases hcomplete : Complete a.total (pending a.key ++ [a])
  · obtain ⟨whole, ordered, hwhole, hmem, hnumbers, htext⟩ := hcollected.catenateMsg
      (hcollected.complete_iff.mp hcomplete) (by have := ha.number; show 0 < a.total; omega) a.id
    have hwhole' : catenateMsg (pending a.key ++ [a]) a.total a.id = .ok (some whole) := hwhole
    rw [if_pos (hcount.mpr hcomplete), hwhole', ok_bind]
    refine ⟨_, _, rfl, ?_, ?_, fun _ => ⟨_, rfl⟩⟩
    · rw [Pending.arrive, if_pos hcomplete]
      refine h.update ha ⟨by simp, by simp, by simp, by simp, nodup_nil⟩ (by simp) fun entry => ?_
      rw [if_pos rfl]
      exact dictGet_dictRemove listDict _ entry
    · intro combined heq
      cases heq
      exact ⟨ordered, fun b hb => ⟨harrived b (hmem b hb), hcollected.same b (hmem b hb)⟩,
        hnumbers, htext⟩
  · rw [if_neg fun hlength => hcomplete (hcount.mp hlength)]
    refine ⟨.waiting, _, rfl, ?_, fun whole heq => (by cases heq),
      fun hall => absurd hall hcomplete⟩
    rw [Pending.arrive, if_neg hcomplete]
    refine h.update ha hcollected harrived fun entry => ?_
    rw [if_neg (append_ne_nil_of_right_ne_nil _ (cons_ne_nil _ _))]
    exact dictGet_dictPut listDict _ entry _

end Pending
end Step

theorem AllOrderly.init (h : AllOrderly (arrivals ++ [a])) : AllOrderly arrivals := by
  rintro before b after rfl
  exact h before b (after ++ [a]) (by rw [append_assoc, cons_append])

theorem AllOrderly.last (h : AllOrderly (arrivals ++ [a])) : Orderly (pendingAfter arrivals) a :=
  h arrivals a [] rfl

theorem AllOrderly.matches (h : AllOrderly arrivals) :
    ∃ listDict, tableAfter arrivals = .ok listDict ∧
      Matches arrivals (pendingAfter arrivals) listDict := by
  induction arrivals using List.reverseRecOn with
  | nil => exact ⟨_, rfl, matches_nil⟩
  | append_singleton arrivals a ih =>
    obtain ⟨listDict, htable, hmatches⟩ := ih h.init
    obtain ⟨outcome, listDict', hcheck, hmatches', -⟩ := hmatches.checkMultipart h.last
    refine ⟨listDict', ?_, ?_⟩
    · rw [tableAfter, foldlM_append]
      rw [tableAfter] at htable
      rw [htable, ok_bind, foldlM_cons, hcheck]
      rfl
    · rw [pendingAfter, foldl_append]
      exact hmatches'

/-- **Long messages.**  As long as the segments are in order, every message handed over is put
together right, with the segment that completes it. -/
theorem checkMultipart_orderly {arrivals : List Submitted} {a : Submitted}
    (h : AllOrderly (arrivals ++ [a])) :
    ∃ listDict outcome listDict', tableAfter arrivals = .ok listDict ∧
      checkMultipart false listDict a = .ok (outcome, listDict') ∧
      (∀ whole, outcome = .whole whole → RightlyWhole (arrivals ++ [a]) a.key whole) ∧
      (Complete a.total (pendingAfter arrivals a.key ++ [a]) →
        ∃ whole, outcome = .whole whole) := by
  obtain ⟨listDict, htable, hmatches⟩ := h.init.matches
  obtain ⟨outcome, listDict', hcheck, -, hright, hwhole⟩ := hmatches.checkMultipart h.last
  exact ⟨listDict, outcome, listDict', htable, hcheck, hright, hwhole⟩

def halfOf (esme : Nat) (partno : UInt8) (text : Octstr) : Submitted where
  esme := ⟨esme, none, fun _ => none⟩
  msg := { smsCreate uuidClear with
    sender := some [49]
    receiver := some [50]
    udhdata := some [5, 0, 3, 7, 2, partno]
    msgdata := some text }
  id := uuidClear

theorem orderly_halves : AllOrderly ([halfOf 1 2 [98]] ++ [halfOf 1 1 [97]]) := by
  intro before a after heq
  match before, heq with
  | [], heq =>
    obtain ⟨rfl, -⟩ := List.cons.inj heq
    exact ⟨by decide, by decide, by decide, fun b hb => (by cases hb), fun key _ _ => rfl⟩
  | [x], heq =>
    obtain ⟨rfl, htail⟩ := List.cons.inj heq
    obtain ⟨rfl, -⟩ := List.cons.inj htail
    have hpending : pendingAfter [halfOf 1 2 [98]] =
        Function.update (fun _ => []) (halfOf 1 1 [97]).key [halfOf 1 2 [98]] := by
      have hmissing : ¬ Complete (halfOf 1 2 [98]).total ([] ++ [halfOf 1 2 [98]]) := by
        intro hcomplete
        obtain ⟨a, ha, hnumber⟩ := hcomplete 1 le_rfl (by decide)
        obtain rfl := mem_singleton.mp ha
        exact absurd hnumber (by decide)
      show Pending.arrive (fun _ => []) (halfOf 1 2 [98]) = _
      rw [Pending.arrive, if_neg hmissing]
      rfl
    refine ⟨by decide, by decide, by decide, fun b hb => ?_, fun key hkey _ => ?_⟩
    · rw [hpending] at hb
      obtain rfl := mem_singleton.mp hb
      decide
    · rw [hpending, Function.update_of_ne hkey]
  | x :: y :: rest, heq =>
    have hlength := congrArg List.length heq
    simp at hlength

theorem halves_combined : ∃ listDict whole listDict',
    tableAfter [halfOf 1 2 [98]] = .ok listDict ∧
      checkMultipart false listDict (halfOf 1 1 [97]) = .ok (.whole whole, listDict') ∧
      RightlyWhole ([halfOf 1 2 [98]] ++ [halfOf 1 1 [97]]) (halfOf 1 1 [97]).key whole := by
  obtain ⟨listDict, outcome, listDict', htable, hcheck, hright, -⟩ :=
    checkMultipart_orderly orderly_halves
  have hwhole : (tableAfter [halfOf 1 2 [98]] >>= fun listDict =>
      checkMultipart false listDict (halfOf 1 1 [97])).toOption.any
        (fun result => result.1 matches .whole _) = true := by
    decide +kernel
  rw [htable, ok_bind, hcheck] at hwhole
  cases outcome with
  | whole msg => exact ⟨listDict, msg, listDict', htable, hcheck, hright msg rfl⟩
  | single | waiting | unassembled => cases hwhole

theorem catenateMsg_joins_halves : ∃ ordered : List Submitted,
    ordered.map Submitted.partno = [1, 2] ∧ ∃ whole : Sms,
      catenateMsg [halfOf 1 2 [98], halfOf 1 1 [97]] 2 uuidClear = .ok (some whole) ∧
        whole.msgdata = some (ordered.flatMap Submitted.text) := by
  obtain ⟨found, -, hmsg, hperm, -⟩ :=
    @catenateMsg_joins [halfOf 1 2 [98], halfOf 1 1 [97]] 2 _ uuidClear rfl rfl (by decide)
      (by simp [halfOf])
  obtain ⟨ordered, -, hnumbers, rfl⟩ := hperm (by decide)
  exact ⟨ordered, hnumbers, _, hmsg, rfl⟩

/-- **A first part without text** fails in `octstr_delete`. -/
theorem catenateMsg_textless : ∃ first : Submitted, first.partno = 1 ∧
    catenateMsg [first, halfOf 1 2 [98]] 2 uuidClear = .error .assertion :=
  ⟨{ halfOf 1 1 [] with msg := { (halfOf 1 1 []).msg with msgdata := none } }, rfl, rfl⟩

/-- **Two clients** with one reference for one receiver: halves of both are put together. -/
theorem clients_mixed : ∃ listDict whole listDict',
    tableAfter [halfOf 1 1 [97]] = .ok listDict ∧
      checkMultipart false listDict (halfOf 2 2 [98]) = .ok (.whole whole, listDict') ∧
      ¬ RightlyWhole ([halfOf 1 1 [97]] ++ [halfOf 2 2 [98]]) (halfOf 2 2 [98]).key whole := by
  obtain ⟨listDict, htable, ⟨outcome, listDict'⟩, hcheck, houtcome⟩ :
      ∃ listDict, tableAfter [halfOf 1 1 [97]] = .ok listDict ∧
        ∃ result, checkMultipart false listDict (halfOf 2 2 [98]) = .ok result ∧
          (result.1 matches .whole _) = true := by
    decide +kernel
  cases outcome with
  | single | waiting | unassembled => cases houtcome
  | whole msg =>
    refine ⟨listDict, msg, listDict', htable, hcheck, ?_⟩
    rintro ⟨segments, hmem, hnumbers, -⟩
    -- Every segment of that message is the second half of the second client.
    have honly : ∀ a ∈ segments, a.partno = 2 := by
      intro a ha
      obtain ⟨harrived, hkey⟩ := hmem a ha
      rcases mem_cons.mp harrived with rfl | harrived
      · exact absurd hkey (by decide)
      · obtain rfl := mem_singleton.mp harrived
        rfl
    have hone : 1 ∈ segments.map Submitted.partno := by
      rw [hnumbers]
      decide
    obtain ⟨a, ha, hnumber⟩ := List.mem_map.mp hone
    rw [honly a ha] at hnumber
    cases hnumber

end Kannel
