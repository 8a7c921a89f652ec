import Kannel.Gw.Dlr
import Kannel.Gw.StoreFile
import Kannel.Gwlib.Counter
import Kannel.Gwlib.Md5

/-!
# Delivery reports in a spool directory

An entry is in a file named by a digest of SMSC and time stamp and the destination in
hexadecimal, which `dlr_spool_remove` looks for as it is.
-/

namespace Kannel
open List

structure SpoolDigest where
  len : Nat
  hash : Octstr → Octstr
  length_hash : ∀ os, (hash os).length = len

def md5SpoolDigest : SpoolDigest := ⟨32, md5digest, length_md5digest⟩

structure SpoolFile where
  name : Octstr
  content : Octstr
  deriving DecidableEq

structure SpoolDir where
  files : List SpoolFile
  distinct : (files.map SpoolFile.name).Nodup

def maxDirs : Nat := 100

structure Spool where
  dir : Nat → Option SpoolDir
  counter : Nat

def spoolDirOf (hash : Octstr) : Nat := octstrHashKey hash % maxDirs

def msgFilenameMatch (len : Nat) (hash : Octstr) (dst : Option Octstr) (f : SpoolFile) : Bool :=
  octstrNcompareEq f.name hash len &&
    match dst with
    | none => true
    | some dst =>
      let addrLen : Int := (f.name.length : Int) - len
      let pos : Int := addrLen - dst.length
      if addrLen < 0 ∨ pos < 0 then false
      else (octstrSearch (f.name.drop len) dst pos.toNat).isSome

def getMsgFilename (len : Nat) (dir : Option SpoolDir) (hash : Octstr) (dst : Option Octstr) :
    Option SpoolFile :=
  match dir with
  | none => none
  | some dir => dir.files.find? (msgFilenameMatch len hash dst)

def octstrBinaryToLowerHex (ostr : Octstr) : Octstr := ostr.flatMap fun c => Hex.digits 2 c.toNat

section
variable (digest : SpoolDigest)

def spoolHash (smsc ts : Octstr) : Octstr := digest.hash (smsc ++ ts)

def dlrSpoolAdd (spool : Spool) (dlr : DlrEntry) (id : Uuid) : Spool :=
  let msg :=
    { smsCreate id with
      smsType := reportMt
      smscId := some dlr.smsc
      foreignId := some dlr.timestamp
      sender := some dlr.source
      receiver := some dlr.destination
      service := some dlr.service
      dlrUrl := some dlr.url
      boxcId := some dlr.boxcId
      dlrMask := dlr.mask }
  let hash := spoolHash digest dlr.smsc dlr.timestamp
  let name := hash ++ octstrBinaryToLowerHex dlr.destination
  let dir := (spool.dir (spoolDirOf hash)).getD ⟨[], nodup_nil⟩
  if h : name ∈ dir.files.map SpoolFile.name then
    { spool with dir := Function.update spool.dir (spoolDirOf hash) (some dir) }
  else
    let dir' : SpoolDir :=
      ⟨⟨name, msgPack (.sms msg)⟩ :: dir.files, by
        rw [map_cons]
        exact nodup_cons.mpr ⟨h, dir.distinct⟩⟩
    { dir := Function.update spool.dir (spoolDirOf hash) (some dir')
      counter := (counterIncreaseWith spool.counter 1).2 }

def dlrEntryOfMsg : Msg → DlrEntry
  | .sms msg =>
    { smsc := msg.smscId.getD []
      timestamp := msg.foreignId.getD []
      source := msg.sender.getD []
      destination := msg.receiver.getD []
      service := msg.service.getD []
      url := msg.dlrUrl.getD []
      boxcId := msg.boxcId.getD []
      mask := toInt msg.dlrMask
      useDst := false }
  | _ => ⟨[], [], [], [], [], [], [], msgParamUndefined, false⟩

def dlrSpoolLocate (spool : Spool) (smsc ts : Octstr) (dst : Option Octstr) : Option SpoolFile :=
  let hash := spoolHash digest smsc ts
  getMsgFilename digest.len (spool.dir (spoolDirOf hash)) hash (dst.map octstrBinaryToLowerHex)

def dlrSpoolGet (spool : Spool) (smsc ts : Octstr) (dst : Option Octstr) :
    Except Failure (Option DlrEntry) :=
  match dlrSpoolLocate digest spool smsc ts dst with
  | none => .ok none
  | some file => do
    let msg ← storeMsgUnpack file.content
    return msg.map dlrEntryOfMsg

end

def SpoolDir.unlink (dir : SpoolDir) (name : Octstr) : SpoolDir where
  files := dir.files.eraseP fun f => f.name = name
  distinct := dir.distinct.sublist (eraseP_sublist.map _)

def Spool.unlink (spool : Spool) (n : Nat) (name : Octstr) : Spool :=
  { spool with
    dir := Function.update spool.dir n ((spool.dir n).map fun dir => dir.unlink name) }

def dlrSpoolRemove (digest : SpoolDigest) (spool : Spool) (smsc ts : Octstr)
    (dst : Option Octstr) : Spool :=
  let hash := spoolHash digest smsc ts
  let dir := spoolDirOf hash
  match getMsgFilename digest.len (spool.dir dir) hash dst with
  | none => spool
  | some file =>
    { spool.unlink dir file.name with counter := (counterDecrease spool.counter).2 }

theorem octstrSearch_end {haystack needle : Octstr} (hlen : needle.length ≤ haystack.length) :
    (octstrSearch haystack needle (haystack.length - needle.length)).isSome = true ↔
      needle <:+ haystack := by
  unfold octstrSearch
  split
  · rename_i hempty
    simp [hempty]
  · rw [List.find?_isSome]
    constructor
    · intro ⟨p, hp, hmatch⟩
      rw [mem_range'_1] at hp
      rw [List.isPrefixOf_iff_prefix] at hmatch
      -- only the first position leaves room for the needle
      have hroom := hmatch.length_le
      rw [length_drop] at hroom
      have heq : needle = haystack.drop p := by
        apply hmatch.eq_of_length
        rw [length_drop]
        omega
      rw [heq]
      exact drop_suffix p haystack
    · intro ⟨before, happ⟩
      have hpos : 0 < needle.length := length_pos_iff.mpr ‹needle ≠ []›
      have hbefore : haystack.length - needle.length = before.length := by
        rw [← happ, length_append]
        omega
      refine ⟨before.length, ?_, ?_⟩
      · rw [mem_range'_1]
        omega
      · rw [List.isPrefixOf_iff_prefix, ← happ, drop_left]

def SpoolFile.HasHash (f : SpoolFile) (len : Nat) (hash : Octstr) : Prop :=
  octstrNcompareEq f.name hash len = true

def SpoolFile.EndsIn (f : SpoolFile) (len : Nat) (dst : Octstr) : Prop :=
  len ≤ f.name.length ∧ dst <:+ f.name.drop len

variable {f : SpoolFile}

theorem msgFilenameMatch_iff {len : Nat} {hash : Octstr} {dst : Option Octstr} :
    msgFilenameMatch len hash dst f = true ↔
      f.HasHash len hash ∧ ∀ d, dst = some d → f.EndsIn len d := by
  unfold msgFilenameMatch SpoolFile.HasHash SpoolFile.EndsIn
  rw [Bool.and_eq_true]
  refine and_congr_right fun _ => ?_
  cases dst with
  | none => simp
  | some d =>
    simp only [Option.some.injEq, forall_eq']
    split
    · simp only [Bool.false_eq_true, false_iff, not_and]
      intro hlen hsuffix
      have hroom := hsuffix.length_le
      rw [length_drop] at hroom
      omega
    · have hlen : len ≤ f.name.length := by omega
      have hd : d.length ≤ (f.name.drop len).length := by
        rw [length_drop]
        omega
      have hpos : ((f.name.length : Int) - len - d.length).toNat =
          (f.name.drop len).length - d.length := by
        rw [length_drop]
        omega
      rw [hpos, octstrSearch_end hd]
      simp [hlen]

def Spool.files (spool : Spool) (n : Nat) : List SpoolFile :=
  match spool.dir n with
  | none => []
  | some dir => dir.files

variable (spool : Spool)

theorem Spool.files_nodup (n : Nat) : ((spool.files n).map SpoolFile.name).Nodup := by
  unfold Spool.files
  cases spool.dir n with
  | none => exact nodup_nil
  | some dir => exact dir.distinct

theorem getMsgFilename_eq (n len : Nat) (hash : Octstr) (dst : Option Octstr) :
    getMsgFilename len (spool.dir n) hash dst =
      (spool.files n).find? (msgFilenameMatch len hash dst) := by
  unfold getMsgFilename Spool.files
  cases spool.dir n <;> rfl

def RemovedExactly (spool spool' : Spool) (n : Nat) (f : SpoolFile) : Prop :=
  f ∈ spool.files n ∧ f ∉ spool'.files n ∧
    ∀ m g, (m, g) ≠ (n, f) → (g ∈ spool'.files m ↔ g ∈ spool.files m)

theorem mem_eraseP_name {files : List SpoolFile} (hfiles : (files.map SpoolFile.name).Nodup)
    (hf : f ∈ files) (g : SpoolFile) :
    g ∈ files.eraseP (fun f' => f'.name = f.name) ↔ g ∈ files ∧ g ≠ f := by
  induction files with
  | nil => cases hf
  | cons first files ih =>
    rw [map_cons, nodup_cons] at hfiles
    rcases mem_cons.mp hf with rfl | hf
    · rw [eraseP_cons_of_pos (by simp), mem_cons]
      constructor
      · intro hg
        refine ⟨.inr hg, ?_⟩
        intro heq
        exact hfiles.1 (heq ▸ List.mem_map_of_mem hg)
      · intro ⟨hg, hne⟩
        exact hg.resolve_left hne
    · have hother : first.name ≠ f.name := by
        intro heq
        exact hfiles.1 (heq ▸ List.mem_map_of_mem hf)
      grind

theorem Spool.mem_unlink {n : Nat} (hf : f ∈ spool.files n) :
    RemovedExactly spool (spool.unlink n f.name) n f := by
  have hsame : (spool.unlink n f.name).files n =
      (spool.files n).eraseP fun f' => f'.name = f.name := by
    unfold Spool.unlink Spool.files
    dsimp only
    rw [Function.update_self]
    cases spool.dir n <;> rfl
  have hother (m : Nat) (hm : m ≠ n) : (spool.unlink n f.name).files m = spool.files m := by
    unfold Spool.unlink Spool.files
    dsimp only
    rw [Function.update_of_ne hm]
  refine ⟨hf, ?_, ?_⟩
  · rw [hsame, mem_eraseP_name (spool.files_nodup n) hf]
    simp
  · intro m g hne
    by_cases hm : m = n
    · subst hm
      have hg : g ≠ f := fun heq => hne (by rw [heq])
      rw [hsame, mem_eraseP_name (spool.files_nodup m) hf]
      simp [hg]
    · rw [hother m hm]

section
variable (digest : SpoolDigest) (spool : Spool) (smsc ts : Octstr) (dst : Option Octstr)

theorem dlrSpoolRemove_exact_iff_found
    (hf : f ∈ spool.files (spoolDirOf (spoolHash digest smsc ts))) :
    RemovedExactly spool (dlrSpoolRemove digest spool smsc ts dst)
        (spoolDirOf (spoolHash digest smsc ts)) f ↔
      (spool.files (spoolDirOf (spoolHash digest smsc ts))).find?
        (msgFilenameMatch digest.len (spoolHash digest smsc ts) dst) = some f := by
  unfold dlrSpoolRemove
  dsimp only
  rw [getMsgFilename_eq]
  generalize spoolDirOf (spoolHash digest smsc ts) = n at hf ⊢
  cases hwalk :
      (spool.files n).find? (msgFilenameMatch digest.len (spoolHash digest smsc ts) dst) with
  | none =>
    simp only [reduceCtorEq, iff_false]
    intro hremoved
    exact hremoved.2.1 hf
  | some g =>
    have hg : g ∈ spool.files n := mem_of_find?_eq_some hwalk
    have hgone := spool.mem_unlink hg
    constructor
    · intro hremoved
      by_contra hne
      have hpair : (n, g) ≠ (n, f) := by
        intro heq
        rw [(Prod.mk.inj heq).2] at hne
        exact hne rfl
      exact hgone.2.1 ((hremoved.2.2 n g hpair).mpr hg)
    · intro heq
      obtain rfl : g = f := Option.some.inj heq
      exact hgone

/-- The file that was found is the first with this digest that also ends in the
plain destination. -/
def FirstInPlain (f : SpoolFile) (d : Octstr) : Prop :=
  f.EndsIn digest.len d ∧
    ∃ before after, spool.files (spoolDirOf (spoolHash digest smsc ts)) = before ++ f :: after ∧
      ∀ g ∈ before, g.HasHash digest.len (spoolHash digest smsc ts) → ¬ g.EndsIn digest.len d

theorem dlrSpoolRemove_exact_iff_first (hfile : dlrSpoolLocate digest spool smsc ts dst = some f) :
    RemovedExactly spool (dlrSpoolRemove digest spool smsc ts dst)
        (spoolDirOf (spoolHash digest smsc ts)) f ↔
      ∀ d, dst = some d → FirstInPlain digest spool smsc ts f d := by
  rw [dlrSpoolLocate, getMsgFilename_eq] at hfile
  rw [dlrSpoolRemove_exact_iff_found digest spool smsc ts dst (mem_of_find?_eq_some hfile)]
  cases dst with
  | none => simpa using hfile
  | some d =>
    have hhash := (msgFilenameMatch_iff.mp (List.find?_some hfile)).1
    simp only [List.find?_eq_some_iff_append, msgFilenameMatch_iff, Option.some.injEq,
      forall_eq', FirstInPlain, hhash, true_and, Bool.not_eq_true', Bool.eq_false_iff, ne_eq,
      not_and]

/-- **Finding and removing.**  The entry found is the one removed exactly if no destination is
given or its file is also the first that ends in the destination as it is. -/
theorem dlrSpoolRemove_exact_iff {entry : DlrEntry}
    (hget : dlrSpoolGet digest spool smsc ts dst = .ok (some entry)) :
    ∃ f, dlrSpoolLocate digest spool smsc ts dst = some f ∧
      (RemovedExactly spool (dlrSpoolRemove digest spool smsc ts dst)
          (spoolDirOf (spoolHash digest smsc ts)) f ↔
        ∀ d, dst = some d → FirstInPlain digest spool smsc ts f d) := by
  cases hfile : dlrSpoolLocate digest spool smsc ts dst with
  | none =>
    rw [dlrSpoolGet, hfile] at hget
    cases hget
  | some f => exact ⟨f, rfl, dlrSpoolRemove_exact_iff_first digest spool smsc ts dst hfile⟩

end

def spooledEntry : DlrEntry :=
  ⟨ascii "smsc", ascii "1", [], ascii "0451234567", [], [], [], 3, false⟩

def emptySpool : Spool := ⟨fun _ => none, 0⟩

def spoolWithEntry : Spool := dlrSpoolAdd md5SpoolDigest emptySpool spooledEntry uuidClear

theorem dlrSpoolRemove_exact_no_destination :
    ∃ f, dlrSpoolLocate md5SpoolDigest spoolWithEntry (ascii "smsc") (ascii "1") none = some f ∧
      RemovedExactly spoolWithEntry
        (dlrSpoolRemove md5SpoolDigest spoolWithEntry (ascii "smsc") (ascii "1") none)
        (spoolDirOf (spoolHash md5SpoolDigest (ascii "smsc") (ascii "1"))) f := by
  have hget : dlrSpoolGet md5SpoolDigest spoolWithEntry (ascii "smsc") (ascii "1") none =
      .ok (some spooledEntry) := by
    decide +kernel
  obtain ⟨f, hfile, hiff⟩ := dlrSpoolRemove_exact_iff md5SpoolDigest spoolWithEntry
    (ascii "smsc") (ascii "1") none hget
  refine ⟨f, hfile, hiff.mpr ?_⟩
  intro d hd
  cases hd

/-- The entry is found, but not removed: it will be found again. -/
theorem dlrSpoolRemove_misses_destination :
    dlrSpoolGet md5SpoolDigest spoolWithEntry (ascii "smsc") (ascii "1")
        (some (ascii "1234567")) = .ok (some spooledEntry) ∧
      ∀ f, dlrSpoolLocate md5SpoolDigest spoolWithEntry (ascii "smsc") (ascii "1")
          (some (ascii "1234567")) = some f →
        ¬ RemovedExactly spoolWithEntry
          (dlrSpoolRemove md5SpoolDigest spoolWithEntry (ascii "smsc") (ascii "1")
            (some (ascii "1234567")))
          (spoolDirOf (spoolHash md5SpoolDigest (ascii "smsc") (ascii "1"))) f := by
  have hstill : dlrSpoolLocate md5SpoolDigest (dlrSpoolRemove md5SpoolDigest spoolWithEntry
      (ascii "smsc") (ascii "1") (some (ascii "1234567"))) (ascii "smsc") (ascii "1")
        (some (ascii "1234567")) =
      dlrSpoolLocate md5SpoolDigest spoolWithEntry (ascii "smsc") (ascii "1")
        (some (ascii "1234567")) := by
    decide +kernel
  refine ⟨by decide +kernel, ?_⟩
  intro f hfile hremoved
  rw [← hstill, dlrSpoolLocate, getMsgFilename_eq] at hfile
  exact hremoved.2.1 (mem_of_find?_eq_some hfile)

end Kannel
