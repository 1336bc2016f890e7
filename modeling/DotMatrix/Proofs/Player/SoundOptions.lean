import DotMatrix.Proofs.Checked.Machine
import DotMatrix.Proofs.Player.Session

namespace DotMatrix

-- There is no quotient by zero.
def Checked.div (a b : Nat) : Checked Nat := if b = 0 then none else some (a / b)

namespace Text

theorem ofDigits_toDigits (n : Nat) : ofDigits (Nat.toDigits 10 n) = some n := by
  have hd : (Nat.toDigits 10 n).all Char.isDigit := by
    rw [List.all_eq_true]
    exact fun c hc => Nat.isDigit_of_mem_toDigits (by decide) (by decide) hc
  rw [ofDigits, if_pos ⟨Nat.toDigits_ne_nil, hd⟩, ← Nat.ofDigitChars_eq_foldl,
    Nat.ofDigitChars_ten_toDigits]

-- A number begins with a digit, and so with no sign.
theorem toDigits_cases (n : Nat) : ∃ c cs, Nat.toDigits 10 n = c :: cs ∧ c.isDigit := by
  cases h : Nat.toDigits 10 n with
  | nil       => exact absurd h Nat.toDigits_ne_nil
  | cons c cs =>
    have hc : c ∈ Nat.toDigits 10 n := h ▸ List.mem_cons_self
    exact ⟨c, cs, rfl, Nat.isDigit_of_mem_toDigits (by decide) (by decide) hc⟩

theorem natural?_toDigits (n : Nat) : natural? (Nat.toDigits 10 n) = some n := by
  have ho := ofDigits_toDigits n
  obtain ⟨c, cs, h, hc⟩ := toDigits_cases n
  rw [h] at ho ⊢
  unfold natural?
  split
  case h_1 hs =>
    cases hs
    cases hc
  case h_2 => exact ho

theorem integer?_toDigits (n : Nat) : integer? (Nat.toDigits 10 n) = some (n : Int) := by
  have ho := natural?_toDigits n
  obtain ⟨c, cs, h, hc⟩ := toDigits_cases n
  rw [h] at ho ⊢
  unfold integer?
  split
  case h_1 hs =>
    cases hs
    cases hc
  case h_2 =>
    rw [ho]
    rfl

end Text

namespace Sound.Config

variable (c : Config)

def checkedSamplePeriod : Checked Nat := do
  let period ← Checked.div Clock.frequency (max 1 c.sampleRate)
  return max 1 period

def checkedBufferLength : Checked Nat := Checked.mul 64 (max 1 c.bufferFrames) 2

theorem checkedSamplePeriod_eq : c.checkedSamplePeriod = some c.samplePeriod := by
  have hr : max 1 c.sampleRate ≠ 0 := Nat.ne_of_gt (Nat.le_max_left ..)
  rw [checkedSamplePeriod, Checked.div, if_neg hr]
  rfl

theorem bufferLength_eq : c.bufferLength = 2 * max 1 c.bufferFrames := Nat.mul_comm ..

theorem checkedBufferLength_eq : c.checkedBufferLength =
    if c.bufferFrames < 1 <<< 63 then some c.bufferLength else none := by
  have hb : max 1 c.bufferFrames * 2 < 1 <<< 64 ↔ c.bufferFrames < 1 <<< 63 := by omega
  simp only [checkedBufferLength, Checked.mul, Checked.fit, hb]
  rfl

theorem fits_iff : c.Fits ↔ c.bufferFrames < 1 <<< 60 := by
  rw [Fits, bufferLength_eq, maxBufferLength]
  omega

end Sound.Config

-- A machine is only built with buffers that memory can address.
theorem Machine.checkedPowerOn_eq_ite (cartridge : Cartridge) (config : Sound.Config) :
    checkedPowerOn cartridge config =
      if config.bufferFrames < 1 <<< 60 then some (powerOn cartridge config) else none := by
  simp only [← config.fits_iff]
  split
  case isTrue h  => exact checkedPowerOn_eq h
  case isFalse h =>
    refine Option.eq_none_iff_forall_ne_some.mpr fun m hm => h ?_
    obtain ⟨apu, ha, -⟩ := Option.bind_eq_some_iff.mp hm
    exact Apu.fits_of_checkedPostBoot ha

namespace Player

theorem toList_toString (n : Nat) : (toString n).toList = Nat.toDigits 10 n := by
  rw [Nat.toString_eq_ofList_toDigits, String.toList_ofList]

-- Numbers do not look like options.
theorem Word.ofList_toString (n : Nat) : Word.ofList (toString n).toList = .plain := by
  obtain ⟨c, cs, h, hc⟩ := Text.toDigits_cases n
  rw [toList_toString, h]
  unfold Word.ofList
  split
  case h_4 => rfl
  all_goals
    rename_i hs
    cases hs
    cases hc

namespace Draft

variable {d : Draft}

theorem count_toString (s : Setting) (n : UInt64) : count s (toString n.toNat) = .ok n := by
  simp only [count, toList_toString, Text.natural?_toDigits, if_pos n.toNat_lt, UInt64.ofNat_toNat]
  rfl

theorem rate_toString (s : Setting) (n : UInt32) : rate s (toString n.toNat) = .ok n := by
  have hn : 0 ≤ (n.toNat : Int) ∧ n.toNat < UInt32.size := ⟨Int.natCast_nonneg _, n.toNat_lt⟩
  simp only [rate, toList_toString, Text.integer?_toDigits, Int.toNat_natCast, if_pos hn,
    UInt32.ofNat_toNat]
  rfl

theorem set_sampleRate (h : d.sampleRate = none) (n : UInt32) :
    d.set .sampleRate (toString n.toNat) = .ok { d with sampleRate := some n } := by
  simp only [set, has, h, rate_toString]
  rfl

theorem set_bufferFrames (h : d.bufferFrames = none) (n : UInt64) :
    d.set .bufferFrames (toString n.toNat) = .ok { d with bufferFrames := some n } := by
  simp only [set, has, h, count_toString]
  rfl

end Draft

namespace Reading

variable {r : Reading} {s : Setting} {word : String}

-- A name settles what was pending.
theorem step_name (hp : r.plain = false) {name : String}
    (hw : Word.ofList word.toList = .long name none) (hs : Setting.ofName? name = some s)
    {d : Draft} (hd : r.draft.settle r.pending = .ok d) :
    r.step word = .ok { draft := d, pending := some (s, none) } := by
  simp only [step, hp, hw, long, hs, Reading.name, settle, hd]
  rfl

-- A value in a word of its own waits to be examined.
theorem step_value (hp : r.plain = false) (hs : r.pending = some (s, none))
    (hw : Word.ofList word.toList = .plain) :
    r.step word = .ok { r with pending := some (s, some word) } := by
  simp only [step, hp, hw, hs]
  rfl

end Reading

namespace Options

-- A command line that asks for a rate and for a number of frames in a buffer.
def soundWords (rate : UInt32) (frames : UInt64) : List String :=
  ["game.gb", "--sample-rate", toString rate.toNat, "--buffer-frames", toString frames.toNat]

-- The words one by one: each name settles the value before it.
theorem parse_soundWords (rate : UInt32) (frames : UInt64) : parse (soundWords rate frames) =
    .ok { romFile := "game.gb", sampleRate := rate, bufferFrames := frames } := by
  let d₁ : Draft := { romFile := some "game.gb" }
  let d₂ : Draft := { d₁ with sampleRate := some rate }
  let d₃ : Draft := { d₂ with bufferFrames := some frames }
  have hr : d₁.set .sampleRate _ = .ok d₂ := Draft.set_sampleRate rfl rate
  have hf : d₂.set .bufferFrames _ = .ok d₃ := Draft.set_bufferFrames rfl frames
  let r₁ : Reading := { pending := some (.romFile, some "game.gb") }
  let r₂ : Reading := { draft := d₁, pending := some (.sampleRate, none) }
  let r₃ : Reading := { draft := d₁, pending := some (.sampleRate, some (toString rate.toNat)) }
  let r₄ : Reading := { draft := d₂, pending := some (.bufferFrames, none) }
  let r₅ : Reading := { draft := d₂, pending := some (.bufferFrames, some (toString frames.toNat)) }
  have h₁ : Reading.step {} "game.gb" = .ok r₁ := rfl
  have h₂ : r₁.step "--sample-rate" = .ok r₂ := rfl
  have h₃ : r₂.step (toString rate.toNat) = .ok r₃ :=
    Reading.step_value rfl rfl (Word.ofList_toString _)
  have h₄ : r₃.step "--buffer-frames" = .ok r₄ := Reading.step_name rfl rfl rfl hr
  have h₅ : r₄.step (toString frames.toNat) = .ok r₅ :=
    Reading.step_value rfl rfl (Word.ofList_toString _)
  have hs : r₅.settle = .ok { draft := d₃ } := by
    simp only [Reading.settle, Draft.settle, r₅, hf]
    rfl
  simp only [parse, soundWords, List.foldlM_cons, List.foldlM_nil, h₁, h₂, h₃, h₄, h₅, hs, bind,
    Except.bind, pure, Except.pure]
  rfl

-- The sound of any options can be asked for on a command line, and its sample period is always
-- computed. The length of its buffer is computed exactly for fewer than 2^63 frames, and the
-- machine is built exactly for fewer than 2^60, whose bytes memory can address.
theorem sound_is_set_up (o : Options) :
    let config := o.soundConfig
    let frames := o.bufferFrames.toNat
    (∃ words asked, parse words = .ok asked ∧ asked.soundConfig = config) ∧
    (config.checkedSamplePeriod = some config.samplePeriod ∧
      1 ≤ config.samplePeriod ∧ config.samplePeriod ≤ 1 <<< 22) ∧
    (config.checkedBufferLength =
        (if frames < 1 <<< 63 then some config.bufferLength else none) ∧
      config.bufferLength = 2 * max 1 frames ∧
      0 < config.bufferLength ∧ config.bufferLength % 2 = 0) ∧
    ∀ cartridge, Machine.checkedPowerOn cartridge config =
      if frames < 1 <<< 60 then some (.powerOn cartridge config) else none := by
  intro config frames
  have hl : config.bufferLength = 2 * max 1 frames := config.bufferLength_eq
  refine ⟨⟨soundWords o.sampleRate o.bufferFrames, _, parse_soundWords .., rfl⟩, ?period, ?length,
    (Machine.checkedPowerOn_eq_ite · config)⟩
  case period =>
    exact ⟨config.checkedSamplePeriod_eq, Nat.le_max_left .., config.samplePeriod_le⟩
  case length => exact ⟨config.checkedBufferLength_eq, hl, by omega, by omega⟩

-- Without a save file, only the size of the buffer can keep a session from beginning with a
-- cartridge.
theorem start_of_not_fits {o : Options} {image : Array UInt8} {c : Cartridge}
    (hc : Cartridge.ofImage image = .ok c) (hf : ¬o.soundConfig.Fits) :
    Session.start o (some image) none = .error .bufferTooLarge := by
  rw [Session.start_some, hc]
  exact if_neg hf

-- A buffer of 2^63 frames has a length of 2^64 samples, which no word holds. The command line is
-- accepted all the same.
theorem overlong_buffer_overflows : ∃ o,
    parse ["game.gb", "--buffer-frames", "9223372036854775808"] = .ok o ∧
      o.soundConfig.checkedBufferLength = none ∧
      (∀ cartridge, Machine.checkedPowerOn cartridge o.soundConfig = none) ∧
      Session.start o (some Cartridge.headerOnly) none = .error .bufferTooLarge := by
  let o : Options := { romFile := "game.gb", bufferFrames := 9223372036854775808 }
  have hl : ¬o.soundConfig.bufferFrames < 1 <<< 63 := by decide
  have hb : ¬o.soundConfig.bufferFrames < 1 <<< 60 := by decide
  obtain ⟨c, hc, -⟩ := Cartridge.ofImage_headerOnly
  refine ⟨o, rfl, ?length, fun cartridge => ?machine, ?session⟩
  case length  => rw [Sound.Config.checkedBufferLength_eq, if_neg hl]
  case machine => rw [Machine.checkedPowerOn_eq_ite, if_neg hb]
  case session => exact start_of_not_fits hc (mt o.soundConfig.fits_iff.mp hb)

end Options
end Player
end DotMatrix
