import Kannel.Gwlib.OctstrText

/-!
# URL encoding

`octstr_url_encode` and `octstr_url_decode`, which works on the C string in place; on
encoded strings it is the inverse.
-/

namespace Kannel
open List

def isSafe (c : UInt8) : Bool :=
  (65 ≤ c && c ≤ 90) || (97 ≤ c && c ≤ 122) || (48 ≤ c && c ≤ 57)
    || c = 45 || c = 95 || c = 46 || c = 126

def hexit (d : Nat) : UInt8 := UInt8.ofNat (if d < 10 then 48 + d else 55 + d)

def urlEncodeOctet (c : UInt8) : Octstr :=
  if c = 32 then [43]
  else if isSafe c then [c]
  else [37, hexit (c.toNat / 16), hexit (c.toNat % 16)]

def octstrUrlEncode (ostr : Octstr) : Octstr := ostr.flatMap urlEncodeOctet

def h2b (c : UInt8) : Option Nat :=
  if 48 ≤ c ∧ c ≤ 57 then some (c.toNat - 48)
  else if 97 ≤ c ∧ c ≤ 102 then some (c.toNat - 87)
  else if 65 ≤ c ∧ c ≤ 70 then some (c.toNat - 55)
  else none

def urlDecodeLoop : Octstr → Octstr × Bool
  | [] => ([], true)
  | 37 :: a :: b :: rest =>
    if a = 0 ∨ b = 0 then ([], false)
    else
      let more := if rest.headD 0 = 0 then ([], true) else urlDecodeLoop rest
      match h2b a, h2b b with
      | some code, some code2 => (UInt8.ofNat (code * 16 + code2) :: more.1, more.2)
      | _, _ => (37 :: a :: b :: more.1, false)
  | c :: rest =>
    if c = 37 then ([], false)
    else
      let more := if rest.headD 0 = 0 then ([], true) else urlDecodeLoop rest
      ((if c = 43 then 32 else c) :: more.1, more.2)

def octstrUrlDecode (ostr : Octstr) : Octstr × Bool := urlDecodeLoop ostr

theorem h2b_hexit {d : Nat} (h : d < 16) : h2b (hexit d) = some d := by
  have hall : ∀ d : Fin 16, h2b (hexit d) = some d.1 := by decide
  exact hall ⟨d, h⟩

theorem hexit_ne_zero {d : Nat} (h : d < 16) : hexit d ≠ 0 := by
  have hall : ∀ d : Fin 16, hexit d ≠ 0 := by decide
  exact hall ⟨d, h⟩

theorem urlEncodeOctet_ne_nil (c : UInt8) : urlEncodeOctet c ≠ [] := by
  unfold urlEncodeOctet
  split
  · simp
  · split <;> simp

theorem urlEncodeOctet_plain {c x : UInt8} (h : x ∈ urlEncodeOctet c) :
    x ≠ 0 ∧ x ≠ 63 ∧ x ≠ 61 ∧ x ≠ 38 := by
  have hdigit : ∀ d : Fin 16, hexit d ≠ 0 ∧ hexit d ≠ 63 ∧ hexit d ≠ 61 ∧ hexit d ≠ 38 := by decide
  have hlt := UInt8.toNat_lt c
  unfold urlEncodeOctet at h
  split at h
  · rw [mem_singleton] at h
    subst h
    decide
  · split at h
    · rw [mem_singleton] at h
      grind [isSafe]
    · simp only [mem_cons, not_mem_nil, or_false] at h
      rcases h with rfl | rfl | rfl
      · decide
      · exact hdigit ⟨c.toNat / 16, by omega⟩
      · exact hdigit ⟨c.toNat % 16, by omega⟩

theorem octstrUrlEncode_plain {ostr : Octstr} {x : UInt8} (h : x ∈ octstrUrlEncode ostr) :
    x ≠ 0 ∧ x ≠ 63 ∧ x ≠ 61 ∧ x ≠ 38 := by
  obtain ⟨c, -, hc⟩ := mem_flatMap.mp h
  exact urlEncodeOctet_plain hc

theorem urlDecodeLoop_octet (c : UInt8) (rest : Octstr) :
    urlDecodeLoop (urlEncodeOctet c ++ rest) =
      (c :: (if rest.headD 0 = 0 then ([], true) else urlDecodeLoop rest).1,
        (if rest.headD 0 = 0 then ([], true) else urlDecodeLoop rest).2) := by
  have hlt := UInt8.toNat_lt c
  unfold urlEncodeOctet
  split
  · rename_i hspace
    subst hspace
    simp [urlDecodeLoop]
  · split
    · have hpercent : c ≠ 37 := by grind [isSafe]
      have hplus : c ≠ 43 := by grind [isSafe]
      simp only [singleton_append]
      rw [urlDecodeLoop]
      · simp [hpercent, hplus]
      · intro a b more heq
        cases heq
        exact absurd rfl hpercent
    · have hhigh : c.toNat / 16 < 16 := by omega
      have hlow : c.toNat % 16 < 16 := by omega
      have hvalue : UInt8.ofNat (c.toNat / 16 * 16 + c.toNat % 16) = c := by
        rw [Nat.div_add_mod']
        exact UInt8.ofNat_toNat
      simp only [cons_append, nil_append, urlDecodeLoop, hexit_ne_zero hhigh,
        hexit_ne_zero hlow, or_self, if_false, h2b_hexit hhigh, h2b_hexit hlow, hvalue]

theorem octstrUrlDecode_octstrUrlEncode (ostr : Octstr) :
    octstrUrlDecode (octstrUrlEncode ostr) = (ostr, true) := by
  unfold octstrUrlDecode octstrUrlEncode
  induction ostr with
  | nil => rfl
  | cons c ostr ih =>
    rw [flatMap_cons, urlDecodeLoop_octet]
    cases ostr with
    | nil => rfl
    | cons d ostr =>
      have hhead : (List.flatMap urlEncodeOctet (d :: ostr)).headD 0 ≠ 0 := by
        rw [flatMap_cons]
        match hd : urlEncodeOctet d, urlEncodeOctet_ne_nil d with
        | x :: xs, _ => exact (urlEncodeOctet_plain (by rw [hd]; exact mem_cons_self)).1
      rw [if_neg hhead, ih]

/-- `*dptr = c` while `string` points at the octet that is read: no octet that has not been
read may be overwritten. -/
def writeBehind (data : Octstr) (string dptr : Nat) (c : UInt8) : Except Failure Octstr :=
  if dptr ≤ string ∧ string < data.length then .ok (data.set dptr c) else .error .outside

def urlDecodeInPlace : (rounds : Nat) → (data : Octstr) → (string dptr : Nat) → (ret : Bool) →
    Except Failure (Octstr × Bool)
  | 0, _, _, _, _ => .error .outside
  | rounds + 1, data, string, dptr, ret =>
    let next := fun (data : Octstr) (string dptr : Nat) (ret : Bool) =>
      if data.getD string 0 = 0 then .ok (data.take dptr, ret)
      else urlDecodeInPlace rounds data string dptr ret
    match data.drop string with
    | 37 :: a :: b :: _ =>
      if a = 0 ∨ b = 0 then .ok (data.take dptr, false)
      else
        match h2b a, h2b b with
        | some code, some code2 => do
          let data ← writeBehind data string dptr (UInt8.ofNat (code * 16 + code2))
          next data (string + 3) (dptr + 1) ret
        | _, _ => do
          let data ← writeBehind data string dptr 37
          let data ← writeBehind data (string + 1) (dptr + 1) (data.getD (string + 1) 0)
          let data ← writeBehind data (string + 2) (dptr + 2) (data.getD (string + 2) 0)
          next data (string + 3) (dptr + 3) false
    | c :: _ =>
      if c = 37 then .ok (data.take dptr, false)
      else do
        let data ← writeBehind data string dptr (if c = 43 then 32 else c)
        next data (string + 1) (dptr + 1) ret
    | [] => .error .outside

def octstrUrlDecodeInPlace (ostr : Octstr) : Except Failure (Octstr × Bool) :=
  if ostr = [] then .ok ([], true) else urlDecodeInPlace ostr.length (ostr ++ [0]) 0 0 true

variable {string dptr : Nat}

theorem writeBehind_ok {data rest : Octstr} {x : UInt8} (hdata : data.drop string = x :: rest)
    (hle : dptr ≤ string) (c : UInt8) :
    ∃ data', writeBehind data string dptr c = .ok data' ∧ data'.drop (string + 1) = rest ∧
      data'.take (dptr + 1) = data.take dptr ++ [c] := by
  have hlt : string < data.length := by
    by_contra hge
    simp [drop_eq_nil_of_le (not_lt.mp hge)] at hdata
  refine ⟨data.set dptr c, if_pos ⟨hle, hlt⟩, ?_, ?_⟩
  · rw [drop_set_of_lt (by omega), ← drop_drop, hdata]
    rfl
  · rw [take_add_one, take_set_of_le le_rfl, List.getElem?_set_self (by omega)]
    rfl

theorem getD_of_drop {data : Octstr} {string : Nat} {text : Octstr} (h : data.drop string = text)
    (k : Nat) : data.getD (string + k) 0 = text.getD k 0 := by
  rw [← h, List.getD_eq_getElem?_getD, List.getD_eq_getElem?_getD, List.getElem?_drop]

theorem urlDecodeLoop_cons {c : UInt8} (hc : c ≠ 37) (rest : Octstr) :
    urlDecodeLoop (c :: rest) =
      ((if c = 43 then 32 else c) ::
          (if rest.headD 0 = 0 then ([], true) else urlDecodeLoop rest).1,
        (if rest.headD 0 = 0 then ([], true) else urlDecodeLoop rest).2) := by
  rw [urlDecodeLoop, if_neg hc]
  intro a b more heq
  exact absurd heq hc

theorem urlDecodeInPlace_eq {rounds : Nat} {data text : Octstr} {ret : Bool}
    (hdata : data.drop string = text ++ [0]) (hne : text ≠ []) (hle : dptr ≤ string)
    (hrounds : text.length ≤ rounds) :
    urlDecodeInPlace rounds data string dptr ret =
      .ok (data.take dptr ++ (urlDecodeLoop text).1, ret && (urlDecodeLoop text).2) := by
  induction rounds generalizing data text string dptr ret with
  | zero => exact absurd (length_eq_zero_iff.mp (by omega)) hne
  | succ rounds ih =>
    -- what the loop does with the rest, once the octets of a round are written
    have hnext : ∀ {data rest : Octstr} {string dptr : Nat} {ret : Bool},
        data.drop string = rest ++ [0] → dptr ≤ string → rest.length ≤ rounds →
        (if data.getD string 0 = 0 then .ok (data.take dptr, ret)
          else urlDecodeInPlace rounds data string dptr ret) =
        (.ok (data.take dptr ++ (if rest.headD 0 = 0 then ([], true) else urlDecodeLoop rest).1,
          ret && (if rest.headD 0 = 0 then ([], true) else urlDecodeLoop rest).2) :
          Except Failure (Octstr × Bool)) := by
      intro data rest string dptr ret hdata hle hrounds
      have hhead : data.getD string 0 = rest.headD 0 := by
        rw [← Nat.add_zero string, getD_of_drop hdata]
        cases rest <;> rfl
      rw [hhead]
      split
      · simp
      · rename_i hzero
        exact ih hdata (fun hnil => hzero (by simp [hnil])) hle hrounds
    rw [urlDecodeInPlace, hdata]
    match text, hne with
    | c :: text, _ =>
      by_cases hc : c = 37
      · subst hc
        match text with
        | [] => simp [urlDecodeLoop]
        | [a] => simp [urlDecodeLoop]
        | a :: b :: rest =>
          have hlength : rest.length ≤ rounds := by
            simp only [length_cons] at hrounds
            omega
          simp only [cons_append, urlDecodeLoop]
          by_cases hzero : a = 0 ∨ b = 0
          · simp [hzero]
          · rw [if_neg hzero, if_neg hzero]
            split
            · rename_i code code2 _ _
              obtain ⟨data', hwrite, hdrop, htake⟩ :=
                writeBehind_ok hdata hle (UInt8.ofNat (code * 16 + code2))
              have hdrop' : data'.drop (string + 3) = rest ++ [0] := by
                rw [← drop_drop (i := 2) (j := string + 1), hdrop]
                rfl
              rw [hwrite, ok_bind, hnext hdrop' (by omega) hlength, htake]
              simp
            · obtain ⟨data₁, hwrite₁, hdrop₁, htake₁⟩ := writeBehind_ok hdata hle 37
              obtain ⟨data₂, hwrite₂, hdrop₂, htake₂⟩ :=
                writeBehind_ok hdrop₁ (Nat.add_le_add_right hle 1) a
              obtain ⟨data₃, hwrite₃, hdrop₃, htake₃⟩ :=
                writeBehind_ok hdrop₂ (Nat.add_le_add_right hle 2) b
              have ha : data₁.getD (string + 1) 0 = a := getD_of_drop hdrop₁ 0
              have hb : data₂.getD (string + 2) 0 = b := getD_of_drop hdrop₂ 0
              rw [hwrite₁, ok_bind, ha, hwrite₂, ok_bind, hb, hwrite₃, ok_bind,
                hnext hdrop₃ (by omega) hlength, htake₃, htake₂, htake₁]
              simp
      · obtain ⟨data', hwrite, hdrop, htake⟩ := writeBehind_ok hdata hle (if c = 43 then 32 else c)
        have hlength : text.length ≤ rounds := Nat.le_of_succ_le_succ hrounds
        rw [urlDecodeLoop_cons hc]
        split
        · rename_i heq
          exact absurd (cons.inj heq).1 hc
        · rename_i heq
          obtain rfl := (cons.inj heq).1
          rw [if_neg hc, hwrite, ok_bind]
          dsimp only
          rw [hnext hdrop (Nat.add_le_add_right hle 1) hlength, htake]
          simp
        · rename_i heq
          cases heq

/-- **URL encoding** is undone by decoding, and decoding in place never writes to an octet that
it has not read and comes to the same as decoding elsewhere. -/
theorem octstrUrlDecode_in_place (ostr : Octstr) :
    octstrUrlDecode (octstrUrlEncode ostr) = (ostr, true) ∧
      octstrUrlDecodeInPlace ostr = .ok (octstrUrlDecode ostr) := by
  refine ⟨octstrUrlDecode_octstrUrlEncode ostr, ?_⟩
  by_cases hne : ostr = []
  · subst hne
    rfl
  · rw [octstrUrlDecodeInPlace, if_neg hne, urlDecodeInPlace_eq rfl hne le_rfl le_rfl]
    rfl

end Kannel
