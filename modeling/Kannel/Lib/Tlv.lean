import Kannel.Lib.BigEndian

/-!
# Sequences of tag-length-value frames

A tag and a length of two octets each, then the value. A reader goes by the lengths alone:
`next` is its step, `walk` its course.
-/

namespace Tlv
open List

structure Frame where
  tag : Nat
  length : Nat
  value : List UInt8
  deriving DecidableEq, Repr

def Frame.octets (f : Frame) : List UInt8 :=
  BigEndian.octets 2 f.tag ++ (BigEndian.octets 2 f.length ++ f.value)

def Frame.Honest (f : Frame) : Prop := f.length % 65536 = f.value.length

instance (f : Frame) : Decidable f.Honest := inferInstanceAs (Decidable (_ = _))

def tagAt (data : List UInt8) (pos : Nat) : Nat := BigEndian.value ((data.drop pos).take 2)

def lengthAt (data : List UInt8) (pos : Nat) : Nat := BigEndian.value ((data.drop (pos + 2)).take 2)

def next (data : List UInt8) (pos : Nat) : Nat := pos + 4 + lengthAt data pos

def walk (data : List UInt8) : Nat → Nat → Nat
  | 0, pos => pos
  | fuel+1, pos => if pos + 4 ≤ data.length then walk data fuel (next data pos) else pos

@[simp] theorem Frame.length_octets (f : Frame) : f.octets.length = 4 + f.value.length := by
  simp [octets]
  omega

section
variable {data before after : List UInt8} {f : Frame}

section
variable (h : data = before ++ (f.octets ++ after))
include h

theorem tagAt_frame : tagAt data before.length = f.tag % 65536 := by
  have htake : (data.drop before.length).take 2 = BigEndian.octets 2 f.tag := by
    rw [h, drop_left, Frame.octets]
    exact take_left' (BigEndian.length_octets _ _)
  rw [tagAt, htake]
  exact BigEndian.value_octets 2 f.tag

theorem lengthAt_frame : lengthAt data before.length = f.length % 65536 := by
  have htake : (data.drop (before.length + 2)).take 2 = BigEndian.octets 2 f.length := by
    rw [← drop_drop, h, drop_left, Frame.octets, append_assoc]
    exact take_left' (BigEndian.length_octets _ _)
  rw [lengthAt, htake]
  exact BigEndian.value_octets 2 f.length

theorem next_frame (hf : f.Honest) : next data before.length = (before ++ f.octets).length := by
  rw [next, lengthAt_frame h, hf, length_append, Frame.length_octets]
  omega

end
end

/-- **Honest frames are walked to the end**; by induction on the frames. -/
theorem walk_frames (fs : List Frame) {data before : List UInt8}
    (h : data = before ++ fs.flatMap Frame.octets) (hfs : ∀ f ∈ fs, f.Honest) {fuel : Nat}
    (hfuel : fs.length ≤ fuel) : walk data fuel before.length = data.length := by
  induction fs generalizing before fuel with
  | nil =>
    rw [flatMap_nil, append_nil] at h
    subst h
    cases fuel with
    | zero => rfl
    | succ fuel => rw [walk, if_neg (by omega)]
  | cons f fs ih =>
    obtain ⟨fuel, rfl⟩ : ∃ k, fuel = k + 1 := ⟨fuel - 1, by simp at hfuel; omega⟩
    rw [flatMap_cons] at h
    have hroom : before.length + 4 ≤ data.length := by
      rw [h]
      simp
      omega
    rw [walk, if_pos hroom, next_frame h (hfs f mem_cons_self)]
    exact ih (by rw [h, append_assoc]) (fun g hg => hfs g (mem_cons_of_mem _ hg))
      (by simp at hfuel; omega)

end Tlv
