import DotMatrix.Proofs.Cpu.LongArithmetic

namespace DotMatrix

theorem lowByte_add_highByte (w : UInt16) :
    (lowByte w).toNat + 0x100 * (highByte w).toNat = w.toNat := by
  have hw := w.toNat_lt
  have hl : (lowByte w).toNat = w.toNat % 0x100 := UInt16.toNat_toUInt8 w
  have hh : (highByte w).toNat = w.toNat >>> 8 % 0x100 := rfl
  rw [Nat.shiftRight_eq_div_pow] at hh
  omega

theorem toNat_word (low high : UInt8) :
    (word low high).toNat = low.toNat + 0x100 * high.toNat := by
  have hl := low.toNat_lt
  have hh := high.toNat_lt
  have hs : (high.toUInt16 <<< 8).toNat = high.toNat <<< 8 := by
    change high.toNat <<< 8 % 0x10000 = _
    rw [Nat.shiftLeft_eq]
    omega
  rw [word, UInt16.toNat_or, hs, UInt8.toNat_toUInt16, ← Nat.shiftLeft_add_eq_or_of_lt hl,
    Nat.shiftLeft_eq]
  omega

theorem bytes_of_toNat {w : UInt16} {low high : UInt8}
    (h : w.toNat = low.toNat + 0x100 * high.toNat) : lowByte w = low ∧ highByte w = high := by
  have hw := lowByte_add_highByte w
  have hl := low.toNat_lt
  have hb := (lowByte w).toNat_lt
  rw [← UInt8.toNat_inj, ← UInt8.toNat_inj]
  omega

theorem word_bytes (w : UInt16) : word (lowByte w) (highByte w) = w := by
  rw [← UInt16.toNat_inj, toNat_word]
  exact lowByte_add_highByte w

theorem lowByte_word (low high : UInt8) : lowByte (word low high) = low :=
  (bytes_of_toNat (toNat_word low high)).1

theorem highByte_word (low high : UInt8) : highByte (word low high) = high :=
  (bytes_of_toNat (toNat_word low high)).2

namespace Arithmetic

variable {x y : UInt16} {low high : UInt8 × Flags}

-- The carries across bit 11 and out of bit 15 are the ones of the high bytes.
theorem addWords_eq_bytes (f : Flags) (hl : IsSum (lowByte x) (lowByte y) false low)
    (hh : IsSum (highByte x) (highByte y) low.2.carry high) :
    lowByte (addWords x y f).1 = low.1 ∧ highByte (addWords x y f).1 = high.1 ∧
      (addWords x y f).2 = { high.2 with zero := f.zero, sub := false } := by
  have hv := low.1.toNat_lt
  have hw := high.1.toNat_lt
  have hx := lowByte_add_highByte x
  have hy := lowByte_add_highByte y
  have ha := (lowByte x).toNat_lt
  have hb := (lowByte y).toNat_lt
  obtain ⟨hs, hc⟩ := (hl.byte.append hh.byte).eq_mod (by omega)
  obtain ⟨-, hn⟩ := (hl.byte.append hh.nibble).eq_mod (by omega)
  rw [hx, hy] at hs hc
  have hr : (addWords x y f).1.toNat = (x.toNat + y.toNat) % 0x10000 := UInt16.toNat_add x y
  obtain ⟨hlow, hhigh⟩ := bytes_of_toNat (hr.trans hs.symm)
  refine ⟨hlow, hhigh, ?_⟩
  rw [addWords, Flags.mk.injEq]
  refine ⟨rfl, rfl, Bool.eq_iff_iff.mpr ?nibble, Bool.eq_iff_iff.mpr ?byte⟩
  case nibble =>
    rw [decide_eq_true_iff, hn]
    omega
  case byte =>
    rw [decide_eq_true_iff, hc]
    omega

end Arithmetic

namespace Operation

variable {β : Type} [Bus β]

-- A word is added to HL as its bytes are added to L and H, except that the zero flag is kept.
theorem addHl_eq_bytes (s : Core β) (rr : Pair) {low high : Operation β}
    (h : Chain .add .adc id carryOut [low, high])
    (hl : low.accumulator = s.cpu.l) (hh : high.accumulator = s.cpu.h)
    (rl : low.operand = lowByte (s.cpu.getPair rr))
    (rh : high.operand = highByte (s.cpu.getPair rr)) :
    s.execute (.addHl rr) = s.mapCpu fun cpu => { cpu with
      h     := high.result
      l     := low.result
      flags := {
        zero  := cpu.flags.zero
        sub   := false
        half  := high.flags.half
        carry := high.flags.carry } } := by
  have sl := isSum (.inl h.ops.head)
  have sh := isSum (.inr (h.ops.tail high List.mem_cons_self))
  have cl : low.carryIn = false := h.carryIn_head rfl
  have ch : high.carryIn = low.outcome.2.carry :=
    (List.isChain_cons_cons.mp (h.carryIn_linked rfl)).1
  have hx : lowByte s.cpu.hl = s.cpu.l ∧ highByte s.cpu.hl = s.cpu.h :=
    bytes_of_toNat (toNat_word s.cpu.l s.cpu.h)
  rw [id, List.head_cons, cl, hl, rl, ← hx.1] at sl
  rw [id, ch, hh, rh, ← hx.2] at sh
  obtain ⟨el, eh, ef⟩ := Arithmetic.addWords_eq_bytes s.cpu.flags sl sh
  simp only [Core.execute, Core.mapCpu, Cpu.setPair, el, eh, ef]
  rfl

-- 0x8fff and 0x7001, whose bytes are added in the accumulator.
theorem addHl_eq_bytes_carry :
    let s : Core Flat := { cpu := { Cpu.postBoot with h := 0x8f, l := 0xff, d := 0x70, e := 0x01 },
                           bus := {} }
    let us := program id after .add .adc s [(0xff, 0x01), (0x8f, 0x70)]
    Chain .add .adc id carryOut us ∧
    us.map accumulator = [s.cpu.l, s.cpu.h] ∧
    us.map operand = [lowByte (s.cpu.getPair .de), highByte (s.cpu.getPair .de)] ∧
    (s.execute (.addHl .de)).cpu = { s.cpu with
      h := 0, l := 0, flags := { zero := true, half := true, carry := true } } := by
  intro s us
  have h : Chain .add .adc id carryOut us :=
    program_chain (fun _ => rfl) (fun _ => rfl) _ _ s _ _
  have he := addHl_eq_bytes s .de h rfl rfl (by decide) (by decide)
  exact ⟨h, rfl, by decide, (congrArg Core.cpu he).trans (by decide +kernel)⟩

end Operation
end DotMatrix
