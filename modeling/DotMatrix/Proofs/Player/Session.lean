import DotMatrix.Player.Session
import DotMatrix.Proofs.Cartridge.Ram
import DotMatrix.Proofs.Cartridge.Save
import DotMatrix.Proofs.Machine.Dma
import DotMatrix.Proofs.Machine.History
import DotMatrix.Proofs.SaveFile

namespace DotMatrix

open Video Sound

namespace Machine

variable {η : Type} [LineSink η] [SampleSink η]

-- Nothing that a machine does exchanges its cartridge for another kind.
theorem invariant_header (header : Cartridge.Header) :
    Tally.Invariant (fun _ => True) fun (_ : Tally η) b => b.cartridge.header = header where
  lasting _ := {
    read h _      := h
    acknowledge h := h
    write {b} h a v _ := by
      rw [← h]
      exact (congrArg Cartridge.header (b.write_cartridge a v)).trans (b.cartridge.write_header _) }
  advance h _ := h
  hold h _ _  := h

theorem runFrame_header (m : Machine) (host : η) :
    (m.runFrame host).machine.cartridge.header = m.cartridge.header := by
  let h : History η := { now := { host, machine := m } }
  have hs := (History.Since.start (h := h) fun _ => rfl).runFrame
    (invariant_header m.cartridge.header).moment
  rw [← h.runFrame_now.left]
  exact hs.now fun _ _ => trivial

end Machine

namespace Player.Session

-- What a session comes to frame by frame, whatever becomes of the frames.
inductive Played (s : Session) : Session → Prop
  | refl : s.Played s
  | frame {t} (h : s.Played t) (out : Output) : s.Played (t.runFrame out).session

variable {s t : Session}

theorem Played.runFrames (h : s.Played t) (out : Output) (n : Nat) :
    s.Played (t.runFrames out n).session := by
  induction n generalizing t out
  case zero => exact h
  case succ n hi =>
    rw [Session.runFrames]
    split
    · exact h.frame out
    · exact hi (h.frame out) _

theorem Played.kept (h : s.Played t) :
    t.machine.cartridge.header = s.machine.cartridge.header ∧ t.keepsSave = s.keepsSave := by
  induction h
  case refl => exact ⟨rfl, rfl⟩
  case frame t _ out hi =>
    have hf := (t.machine.hold t.held.1 t.held.2).runFrame_header out
    exact ⟨hf.trans hi.left, hi.right⟩

-- All that can come of a save file: it is too short, or not as long as the RAM, or it is loaded.
theorem load_cases (c : Cartridge) (file : Array UInt8) :
    let n := SaveFile.announced file
    let size := c.header.ramBytes
    file.size < 8 + n ∧ load c file = .error .corruptSave ∨
    (8 + n ≤ file.size ∧ n ≠ size) ∧ load c file = .error (.cartridge (.saveMismatch size n)) ∨
    (8 + n ≤ file.size ∧ n = size) ∧ ∃ ram : Memory size,
      ram.toArray = file.extract 8 (8 + size) ∧ load c file = .ok { c with ram } := by
  intro n size
  cases Nat.lt_or_ge file.size (8 + n)
  case inl h =>
    refine .inl ⟨h, ?_⟩
    rw [load, SaveFile.decode_of_short h]
    rfl
  case inr h =>
    have hs := SaveFile.size_extract h
    have hd := SaveFile.decode_of_le h
    by_cases hn : n = size
    case neg =>
      refine .inr (.inl ⟨⟨h, hn⟩, ?_⟩)
      simp only [load, hd, c.restore_of_size_ne fun hr => hn (hs.symm.trans hr), hs]
      rfl
    case pos =>
      have hr := hs.trans hn
      refine .inr (.inr ⟨⟨h, hn⟩, ⟨_, hr⟩, congrArg (file.extract 8 <| 8 + ·) hn, ?_⟩)
      simp only [load, hd, c.restore_of_size_eq hr]
      rfl

theorem ok_of_bind {ε α β : Type} {x : Except ε α} {f : α → Except ε β} {b : β}
    (h : x.bind f = .ok b) : ∃ a, x = .ok a ∧ f a = .ok b := by
  cases x
  case error => cases h
  case ok a  => exact ⟨a, rfl, h⟩

theorem start_some (o : Options) (image : Array UInt8) (save : Option (Array UInt8)) :
    start o (some image) save =
      ((Cartridge.ofImage image).mapError .cartridge).bind fun c =>
        let keepsSave := c.hasBattery && !o.noSave
        (save.elim (.ok c) fun file => if keepsSave then load c file else .ok c).bind fun loaded =>
          if o.soundConfig.Fits then
            .ok { machine := .powerOn loaded o.soundConfig, held := o.heldMasks, keepsSave }
          else .error .bufferTooLarge := by
  simp only [start, bind, pure, Except.pure, ite_not]
  congr
  funext c
  cases save
  case none =>
    simp only [Option.elim_none, Except.bind]
    split <;> rfl
  case some file =>
    simp only [Option.elim_some]
    cases c.hasBattery && !o.noSave
    case false =>
      simp only [Bool.false_eq_true, if_false, Except.bind]
      split <;> rfl
    case true =>
      simp only [if_true, Except.bind]
      cases load c file
      case error     => rfl
      case ok loaded => dsimp only; split <;> rfl

-- A session begins with a machine that is just switched on.
theorem machine_of_start {o : Options} {rom save : Option (Array UInt8)}
    (h : start o rom save = .ok s) :
    ∃ c, s.machine = .powerOn c o.soundConfig ∧ o.soundConfig.Fits := by
  cases rom
  case none       => cases h
  case some image =>
    rw [start_some] at h
    obtain ⟨c, -, h⟩ := ok_of_bind h
    obtain ⟨loaded, -, h⟩ := ok_of_bind h
    by_cases hf : o.soundConfig.Fits
    case neg => rw [if_neg hf] at h; cases h
    case pos =>
      rw [if_pos hf] at h
      cases h
      exact ⟨loaded, rfl, hf⟩

-- The first moment of a session that keeps a save file.
def opening (o : Options) (c : Cartridge) : Session where
  machine   := .powerOn c o.soundConfig
  held      := o.heldMasks
  keepsSave := true

section Battery

variable {o : Options} {image : Array UInt8} {c : Cartridge} {save : Option (Array UInt8)}
  (hc : Cartridge.ofImage image = .ok c) (hb : c.hasBattery) (hn : o.noSave = false)

include hc hb hn

-- A session with a battery begins once its save, if there is one, is loaded.
theorem start_eq : start o (some image) save =
    (save.elim (.ok c) (load c)).bind fun c =>
      if o.soundConfig.Fits then .ok (opening o c) else .error .bufferTooLarge := by
  rw [start_some, hc]
  simp only [Except.mapError, Except.bind.eq_2, hb, hn, Bool.not_false, Bool.and_self, if_true]
  rfl

theorem start_eq_ok_iff : start o (some image) save = .ok s ↔ o.soundConfig.Fits ∧
    ∃ loaded, save.elim (.ok c) (load c) = .ok loaded ∧ s = opening o loaded := by
  rw [start_eq hc hb hn]
  cases save.elim (.ok c) (load c)
  case error e => simp [Except.bind]
  case ok c    =>
    by_cases hf : o.soundConfig.Fits
    case pos => simp [Except.bind, hf, eq_comm]
    case neg => simp [Except.bind, hf]

-- What becomes of a save file is told by its size and by the size that it announces.
theorem start_file (file : Array UInt8) :
    let n := SaveFile.announced file
    let size := c.header.ramBytes
    (∀ s, start o (some image) (some file) = .ok s ↔
      (8 + n ≤ file.size ∧ n = size) ∧ o.soundConfig.Fits ∧ ∃ ram : Memory size,
        ram.toArray = file.extract 8 (8 + size) ∧ s = opening o { c with ram }) ∧
    (start o (some image) (some file) = .error .corruptSave ↔
      file.size < 8 ∨ file.size < 8 + n) ∧
    (start o (some image) (some file) = .error (.cartridge (.saveMismatch size n)) ↔
      8 + n ≤ file.size ∧ n ≠ size) := by
  intro n size
  have hs : start o (some image) (some file) = (load c file).bind fun c =>
      if o.soundConfig.Fits then .ok (opening o c) else .error .bufferTooLarge :=
    start_eq hc hb hn
  obtain ⟨h, hl⟩ | ⟨⟨h, hn⟩, hl⟩ | ⟨⟨h, hn⟩, ram, hr, hl⟩ := load_cases c file
  case inl =>
    rw [hs, hl]
    refine ⟨fun s => iff_of_false nofun ?_, iff_of_true rfl (.inr h), iff_of_false nofun ?_⟩
    · exact fun hf => Nat.not_le.mpr h hf.left.left
    · exact fun hf => Nat.not_le.mpr h hf.left
  case inr.inl =>
    rw [hs, hl]
    refine ⟨fun s => iff_of_false nofun ?_, iff_of_false nofun ?_, iff_of_true rfl ⟨h, hn⟩⟩
    · exact fun hf => hn hf.left.right
    · omega
  case inr.inr hn' =>
    refine ⟨fun s => ?_, iff_of_false ?_ (by omega), iff_of_false ?_ fun hf => hf.right hn⟩
    · rw [start_eq_ok_iff hc hb hn', Option.elim_some, hl]
      constructor
      case mp =>
        rintro ⟨hf, -, ⟨⟩, rfl⟩
        exact ⟨⟨h, hn⟩, hf, ram, hr, rfl⟩
      case mpr =>
        rintro ⟨-, hf, ram', hr', rfl⟩
        exact ⟨hf, _, rfl, by rw [Vector.toArray_inj.mp (hr.trans hr'.symm)]⟩
    all_goals
      rw [hs, hl, Except.bind]
      split <;> nofun

-- Whatever save there is, the session begins with the cartridge of its image and some RAM.
theorem exists_of_start (h : start o (some image) save = .ok s) :
    ∃ ram, s = opening o { c with ram } := by
  obtain ⟨-, loaded, hl, rfl⟩ := (start_eq_ok_iff hc hb hn).mp h
  cases save
  case none =>
    cases hl
    exact ⟨_, rfl⟩
  case some file =>
    simp only [Option.elim_some] at hl
    obtain ⟨-, h⟩ | ⟨-, h⟩ | ⟨-, ram, -, h⟩ := load_cases c file
    all_goals cases hl.symm.trans h
    exact ⟨ram, rfl⟩

theorem kept_of_start (hs : start o (some image) save = .ok s) (h : s.Played t) :
    t.machine.cartridge.header = c.header ∧ t.keepsSave := by
  obtain ⟨ram, rfl⟩ := exists_of_start hc hb hn hs
  exact h.kept

-- The file that a session leaves behind holds its RAM,
theorem saveFile_of_played (hs : start o (some image) save = .ok s) (h : s.Played t) :
    t.saveFile = some (SaveFile.encode t.machine.cartridge.ram.toArray) := by
  obtain ⟨hh, hk⟩ := kept_of_start hc hb hn hs h
  have hb' : t.machine.cartridge.hasBattery := by rwa [Cartridge.hasBattery, hh]
  rw [saveFile, if_pos hk, Cartridge.save, if_pos hb']
  rfl

-- and is loaded by the next one.
theorem start_encode (hf : o.soundConfig.Fits) (ram : Memory c.header.ramBytes) :
    start o (some image) (some (SaveFile.encode ram.toArray)) =
      .ok (opening o { c with ram }) := by
  have hs : ram.toArray.size < 2 ^ 64 := by
    rw [ram.size_toArray]
    exact Nat.lt_of_le_of_lt c.header.ramBytes_le (by decide)
  have hl : load c (SaveFile.encode ram.toArray) = .ok { c with ram } := by
    rw [load, SaveFile.decode_encode hs]
    simp only [c.restore_of_size_eq ram.size_toArray]
    rfl
  exact (start_eq_ok_iff hc hb hn).mpr ⟨hf, _, hl, rfl⟩

end Battery

-- A session with a battery begins with the RAM of a save file exactly if the file is as long as it
-- announces to be, and announces as much as the RAM has; it tells the other files apart, and a save
-- that is refused leaves the cartridge as it was. However the session is played, the file that it
-- leaves behind brings its RAM back.
theorem saves_of_start {o : Options} {image : Array UInt8} {c : Cartridge}
    (hc : Cartridge.ofImage image = .ok c) (hb : c.hasBattery) (hn : o.noSave = false) :
    let size := c.header.ramBytes
    (∀ file, let n := SaveFile.announced file
      (∀ s, start o (some image) (some file) = .ok s ↔
        (8 + n ≤ file.size ∧ n = size) ∧ o.soundConfig.Fits ∧ ∃ ram : Memory size,
          ram.toArray = file.extract 8 (8 + size) ∧ s = opening o { c with ram }) ∧
      (start o (some image) (some file) = .error .corruptSave ↔
        file.size < 8 ∨ file.size < 8 + n) ∧
      (start o (some image) (some file) = .error (.cartridge (.saveMismatch size n)) ↔
        8 + n ≤ file.size ∧ n ≠ size)) ∧
    (∀ ram, (Cartridge.loadSave ram).run.run c =
      match c.restore ram with
      | .ok loaded => (.ok (), loaded)
      | .error e   => (.error e, c)) ∧
    ∀ save s t, start o (some image) save = .ok s → s.Played t →
      t.saveFile = some (SaveFile.encode t.machine.cartridge.ram.toArray) ∧
      ∀ o', o'.noSave = false → o'.soundConfig.Fits →
        ∃ u, start o' (some image) t.saveFile = .ok u ∧
          u.machine.cartridge.ram.toArray = t.machine.cartridge.ram.toArray := by
  intro size
  refine ⟨start_file hc hb hn, c.loadSave_run, fun save s t hs ht => ?_⟩
  have hf := saveFile_of_played hc hb hn hs ht
  have hr : t.machine.cartridge.ram.toArray.size = size := by
    rw [Vector.size_toArray, (kept_of_start hc hb hn hs ht).left]
  refine ⟨hf, fun o' hn' hf' => ?_⟩
  rw [hf]
  exact ⟨_, start_encode hc hb hn' hf' ⟨_, hr⟩, rfl⟩

-- A file of no bytes, one that announces none, and one that fits.
theorem saves_of_start_batteryImage :
    let o : Options := { romFile := "" }
    let image := Cartridge.batteryImage
    let ram := Array.replicate 0x8000 7
    start o (some image) (some #[]) = .error .corruptSave ∧
    start o (some image) (some (SaveFile.encode #[])) =
      .error (.cartridge (.saveMismatch 0x8000 0)) ∧
    ∃ s, start o (some image) (some (SaveFile.encode ram)) = .ok s ∧
      s.machine.cartridge.ram.toArray = ram ∧
      let t := (s.runFrames {} 60).session
      ∃ u, start o (some image) t.saveFile = .ok u ∧
        u.machine.cartridge.ram.toArray = t.machine.cartridge.ram.toArray := by
  intro o image ram
  obtain ⟨c, hc, hh⟩ := Cartridge.ofImage_batteryImage
  have hr : c.header.ramBytes = 0x8000 := by rw [hh, Cartridge.ramBytes_eq]; rfl
  have hb : c.hasBattery := by rw [Cartridge.hasBattery, hh]; rfl
  obtain ⟨hf, -, hp⟩ := saves_of_start (o := o) hc hb rfl
  have hs : ram.size = c.header.ramBytes := Array.size_replicate.trans hr.symm
  have hn : SaveFile.announced (SaveFile.encode ram) = ram.size :=
    SaveFile.announced_encode (by rw [hs, hr]; decide)
  have hx : ram = (SaveFile.encode ram).extract 8 (8 + c.header.ramBytes) := by
    rw [← hs, SaveFile.extract_encode]
  have hl := ((hf (SaveFile.encode ram)).left _).mpr
    ⟨⟨by rw [hn, SaveFile.size_encode], hn.trans hs⟩, by decide, ⟨ram, hs⟩, hx, rfl⟩
  have h0 := (hf (SaveFile.encode #[])).right.right.mpr
  rw [SaveFile.announced_encode (by decide), hr] at h0
  refine ⟨(hf #[]).right.left.mpr (.inl (by decide)), h0 ⟨by decide, by decide⟩, _, hl, rfl, ?_⟩
  exact (hp _ _ _ hl (Played.refl.runFrames {} 60)).right o rfl (by decide)

end Player.Session
end DotMatrix
