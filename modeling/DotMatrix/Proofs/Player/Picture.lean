import DotMatrix.Proofs.Host.Visible
import DotMatrix.Proofs.Host.Watching
import DotMatrix.Proofs.Machine.Held
import DotMatrix.Proofs.Machine.Illegal
import DotMatrix.Proofs.Machine.Picture
import DotMatrix.Proofs.Player.Session

namespace DotMatrix

open Video Sound

namespace Player

namespace Screen

variable {s : Screen} {line : Nat} {pixels : Scanline} {drawn : List (Nat × Scanline)}

-- The screen after some lines are drawn, one after the other.
def drawAll (s : Screen) (drawn : List (Nat × Scanline)) : Screen :=
  drawn.foldl (fun s x => (s.draw x.fst x.snd).snd) s

theorem drawAll_append (s : Screen) (xs ys : List (Nat × Scanline)) :
    s.drawAll (xs ++ ys) = (s.drawAll xs).drawAll ys :=
  List.foldl_append

theorem draw_of_lt (h : line < Clock.visibleLines) (s : Screen) (pixels : Scanline) :
    s.draw line pixels = (none, { s with rows := s.rows.set line pixels h }) :=
  dif_pos h

-- A row shows the only line that was drawn there.
theorem row_drawAll (hl : ∀ x ∈ drawn, x.fst < Clock.visibleLines)
    (hn : (drawn.map Prod.fst).Nodup) (hx : (line, pixels) ∈ drawn)
    (h : line < Clock.visibleLines) : (s.drawAll drawn).rows[line] = pixels := by
  induction drawn using List.reverseRecOn
  case nil => cases hx
  case append_singleton xs y hi =>
    have hy := hl y (List.mem_append_right _ (List.mem_singleton.mpr rfl))
    rw [drawAll_append, drawAll, List.foldl_cons, List.foldl_nil, draw_of_lt hy]
    rw [List.map_append, List.nodup_append] at hn
    obtain ⟨hn, -, hd⟩ := hn
    cases List.mem_append.mp hx
    case inr hx =>
      obtain rfl := List.mem_singleton.mp hx
      exact Vector.getElem_set_self _
    case inl hx =>
      have hne : y.fst ≠ line := (hd line (List.mem_map_of_mem hx) y.fst (by simp)).symm
      rw [Vector.getElem_set_ne _ _ hne]
      exact hi (fun z hz => hl z (List.mem_append_left _ hz)) hn hx

-- Once the lines of one picture are drawn, the screen shows them.
theorem drawn_eq_rows (hd : drawn.map Prod.fst = List.range Clock.visibleLines) :
    drawn = List.ofFn fun l : Fin Clock.visibleLines => (l.val, (s.drawAll drawn).rows[l]) := by
  have hl : ∀ x ∈ drawn, x.fst < Clock.visibleLines := by
    intro x hx
    have : x.fst ∈ drawn.map Prod.fst := List.mem_map_of_mem hx
    exact List.mem_range.mp (hd ▸ this)
  have hn : (drawn.map Prod.fst).Nodup := hd ▸ List.nodup_range
  have hs : drawn.length = Clock.visibleLines := by
    rw [← List.length_map Prod.fst, hd, List.length_range]
  apply List.ext_getElem (by rw [hs, List.length_ofFn])
  intro i hi hi'
  obtain ⟨line, pixels, hx⟩ : ∃ line pixels, drawn[i] = (line, pixels) := ⟨_, _, rfl⟩
  obtain rfl : line = i := by
    have hm : i < (drawn.map Prod.fst).length := by rwa [List.length_map]
    have hf : (drawn.map Prod.fst)[i] = i := by simp only [hd, List.getElem_range]
    rwa [List.getElem_map, hx] at hf
  rw [hx, List.getElem_ofFn]
  exact congrArg (Prod.mk line) (row_drawAll hl hn (hx ▸ List.getElem_mem hi) _).symm

end Screen

theorem takesLines_output : TakesLines fun _ : Output => True :=
  fun _ _ _ hv => ⟨congrArg Prod.fst (Screen.draw_of_lt hv.onScreen ..), trivial⟩

theorem takesBuffers_output : TakesBuffers fun _ : Output => True :=
  fun _ _ => ⟨rfl, trivial⟩

-- The output under watch: its screen is what has been drawn, all of it visible.
structure Shown (before : Screen) (w : Watched Output) : Prop where
  screen  : w.host.screen = before.drawAll w.lines
  visible : ∀ x ∈ w.lines, Visible x.fst x.snd

theorem takesLines_shown (before : Screen) : TakesLines (Shown before) := by
  intro w h n pixels hv
  have hd := Screen.draw_of_lt hv.onScreen w.host.screen pixels
  refine ⟨congrArg Prod.fst hd, ?_, ?_⟩
  · rw [Watched.lines_draw, Screen.drawAll_append, ← h.screen]
    rfl
  · intro x hx
    rw [Watched.lines_draw] at hx
    cases List.mem_append.mp hx
    case inl hx => exact h.visible x hx
    case inr hx => exact List.mem_singleton.mp hx ▸ hv

theorem takesBuffers_shown (before : Screen) : TakesBuffers (Shown before) := by
  intro w h frames
  refine ⟨rfl, ?_, ?_⟩
  · rw [Watched.lines_queue, ← h.screen]
    rfl
  · rw [Watched.lines_queue]
    exact h.visible

namespace Session

variable {s : Session} {out : Output} {o : Options} {rom save : Option (Array UInt8)} {n : Nat}

-- What a session comes to that is asked for some frames, whatever becomes of each.
def calls (s : Session) (out : Output) : Nat → Run
  | 0     => { session := s, output := out }
  | n + 1 => (s.calls out n).session.runFrame (s.calls out n).output

-- The moments of the machine meanwhile.
def history (s : Session) (out : Output) : Nat → Machine.History (Watched Output)
  | 0     => { now := { host := .of out, machine := s.machine } }
  | n + 1 => ((s.history out n).call (.hold s.held.1 s.held.2)).call .runFrame

theorem calls_held (n : Nat) : (s.calls out n).session.held = s.held := by
  induction n with
  | zero      => rfl
  | succ n ih => exact ih

-- The last of these moments is where the session has come to.
structure Follows (s : Session) (out : Output) (n : Nat) : Prop where
  machine : (s.history out n).now.machine = (s.calls out n).session.machine
  host    : (s.history out n).now.host.host = (s.calls out n).output

theorem Follows.next (h : s.Follows out n) : s.Follows out (n + 1) ∧
    (s.history out (n + 1)).now.errors =
      (s.history out n).now.errors ++ (s.calls out (n + 1)).error.toList := by
  let g := (s.history out n).call (.hold s.held.1 s.held.2)
  obtain ⟨hm, hh, he, -⟩ := g.runFrame_now
  have hw := g.now.machine.runFrame_watched g.now.host
  have hr : g.now.machine.runFrame g.now.host.host =
      (((s.calls out n).session.machine.hold (s.calls out n).session.held.1
        (s.calls out n).session.held.2).runFrame (s.calls out n).output) := by
    rw [calls_held, ← h.machine, ← h.host]
    rfl
  rw [hr] at hw
  refine ⟨⟨hm.trans hw.machine, (congrArg Watched.host hh).trans hw.host⟩, he.trans ?_⟩
  rw [hw.error]
  rfl

theorem follows (s : Session) (out : Output) (n : Nat) : s.Follows out n := by
  induction n with
  | zero      => exact ⟨rfl, rfl⟩
  | succ n ih => exact ih.next.left

section Calls

variable (hs : s.machine.Reachable)

include hs

theorem reachable_calls (out : Output) (n : Nat) : (s.calls out n).session.machine.Reachable := by
  induction n with
  | zero      => exact hs
  | succ n ih => exact (ih.hold _ _).runFrame _

-- Nothing but the program can fail.
theorem calls_error (out : Output) (n : Nat) :
    (s.calls out n).error = none ∨ ∃ e, (s.calls out n).error = some (.illegal e) := by
  cases n
  case zero   => exact .inl rfl
  case succ n =>
    have hm := ((reachable_calls hs out n).hold (s.calls out n).session.held.1
      (s.calls out n).session.held.2).orderly
    exact (hm.runFrame_taken takesLines_output takesBuffers_output trivial).error

theorem shown (out : Output) (n : Nat) : Shown out.screen (s.history out n).now.host := by
  induction n
  case zero      => exact ⟨rfl, fun _ hx => absurd hx List.not_mem_nil⟩
  case succ n hi =>
    let g := (s.history out n).call (.hold s.held.1 s.held.2)
    have hg : g.now.machine.Orderly :=
      (((s.follows out n).machine ▸ reachable_calls hs out n).hold _ _).orderly
    have ht := hg.runFrame_taken (takesLines_shown out.screen) (takesBuffers_shown _) hi
    exact g.runFrame_now.right.left ▸ ht.host

end Calls

-- Once the program has failed, it fails in every frame.
theorem runFrame_illegal {e : IllegalInstruction} (h : (s.runFrame out).error = some (.illegal e))
    (out' : Output) : ((s.runFrame out).session.runFrame out').error = some (.illegal e) := by
  let m := s.machine.hold s.held.1 s.held.2
  obtain ⟨hm, hl⟩ := Machine.stoppedBy_of_runFrame (m := m) h
  have hh := Machine.hold_of_held (m := (m.runFrame out).machine) (m.runFrame_held out)
  have hr : ((s.runFrame out).session.runFrame out').error =
      (((m.runFrame out).machine.hold s.held.1 s.held.2).runFrame out').error := rfl
  rw [hr, hh, hm.runFrame hl out']

theorem error_of_calls (hs : s.machine.Reachable) (h : (s.calls out (n + 1)).error = none) :
    (s.calls out n).error = none := by
  cases calls_error hs out n
  case inl hn => exact hn
  case inr hi =>
    obtain ⟨e, he⟩ := hi
    cases n
    case zero   => cases he
    case succ n => cases h.symm.trans (runFrame_illegal he _)

theorem errors_of_calls (hs : s.machine.Reachable) (h : (s.calls out n).error = none) :
    (s.history out n).now.errors = [] := by
  induction n
  case zero      => rfl
  case succ n hi =>
    rw [(s.follows out n).next.right, hi (error_of_calls hs h), h]
    rfl

-- As long as nothing has failed, each frame begins where the last one has ended.
theorem tracked {c : Cartridge} (hs : s.machine.Reachable)
    (hc : s.machine = .powerOn c o.soundConfig) (h : (s.calls out n).error = none) :
    (s.history out n).now.Tracked := by
  induction n
  case zero =>
    rw [history, hc]
    exact {
      aligned  := ⟨Nat.dvd_zero _, Nat.zero_le _⟩
      frames   := rfl
      raster _ := ⟨0, .postBoot, Showing.counted_start out⟩ }
  case succ n hi =>
    have ht := (hi (error_of_calls hs h)).hold s.held.1 s.held.2
    exact (Machine.Moment.Tracked.next ht (errors_of_calls hs h)).left

-- The player's screen never fails: each frame that is asked for, from the first on, comes to its end
-- or meets an illegal instruction. All lines that are drawn are visible. A frame that comes to its
-- end, if the program has never switched off the picture, draws every line of the screen once, and
-- the rows of the screen show them.
theorem frames_reach_screen (h : start o rom save = .ok s) (out : Output) (n : Nat) :
    let p := (s.history out n).now
    let q := (s.history out (n + 1)).now
    let r := s.calls out (n + 1)
    q.machine = r.session.machine ∧ q.host.host = r.output ∧
    (r.error = none ∨ ∃ e, r.error = some (.illegal e)) ∧
    (∀ x ∈ q.host.lines, Visible x.fst x.snd) ∧
    (r.error = none → (∀ w ∈ q.writes, KeepsScreen w) →
      q.host.lines = p.host.lines ++
        .ofFn fun l : Fin Clock.visibleLines => (l.val, r.output.screen.rows[l])) := by
  intro p q r
  obtain ⟨c, hc, hf⟩ := machine_of_start h
  have hs : s.machine.Reachable := hc ▸ .powerOn c _ (Machine.checkedPowerOn_eq hf)
  have hq := s.follows out (n + 1)
  refine ⟨hq.machine, hq.host, calls_error hs out _, (shown hs out _).visible, fun he hw => ?_⟩
  have ht := (tracked hs hc (error_of_calls hs he)).hold s.held.1 s.held.2
  obtain ⟨drawn, hd, hn⟩ := (ht.runFrame (errors_of_calls hs he) hw).left
  have hp : p.host.host.screen = out.screen.drawAll p.host.lines := (shown hs out n).screen
  have hl : q.host.lines = p.host.lines ++ drawn := hd
  have hr : r.output.screen = p.host.host.screen.drawAll drawn := by
    rw [← hq.host, (shown hs out (n + 1)).screen, hp, ← Screen.drawAll_append, ← hl]
  rw [hl, hr, ← Screen.drawn_eq_rows hn]

end Session
end Player

-- An image of a cartridge whose program sends the processor to sleep at once.
def Cartridge.nap : Array UInt8 := .ofFn fun i : Fin 0x150 => if i.val = 0x100 then 0x76 else 0

theorem Cartridge.ofImage_nap :
    ∃ c, ofImage nap = .ok c ∧ c.hasBattery = false ∧ c.readRom 0x100 = 0x76 := by
  let header : Header := { kind := .romOnly, romCode := 0, ramSize := .absent }
  have hs : nap.size = 0x150 := Array.size_ofFn
  have hb : header.romBytes = 0x8000 := by rw [romBytes_eq]; decide
  have hh : Holds nap header := by
    refine ⟨Nat.le_of_eq hs.symm, ?_, ?_, ?_, by rw [hs, hb]; decide⟩
    all_goals simp [kindByte, romByte, ramByte, nap]; rfl
  have ho : BankRegisters.romOffset header {} 0x100 % header.romBytes = 0x100 := by
    rw [hb]
    rfl
  have hg : nap.getD 0x100 0 = 0x76 := by simp [nap]
  refine ⟨_, hh.ofImage, rfl, ?_⟩
  rw [readRom, Memory.read_eq_getD _ _ (romBytes_pos _), padded_getD, ho, hg]

namespace Player.Session

variable {s : Session} {out : Output} {n : Nat}

-- A session whose processor sleeps writes nothing.
theorem idle_history (h : s.machine.Idle) (n : Nat) :
    (s.history out n).now.machine.Idle ∧ (s.history out n).now.writes = [] := by
  induction n
  case zero      => exact ⟨h, rfl⟩
  case succ n hi =>
    have h := (Machine.History.Since.start hi).call Machine.invariant_idle_writes
      (.hold s.held.1 s.held.2)
    exact h.call Machine.invariant_idle_writes .runFrame |>.now

theorem error_of_idle (h : s.machine.Idle) (hs : s.machine.Reachable) (out : Output) (n : Nat) :
    (s.calls out (n + 1)).error = none := by
  refine (calls_error hs out (n + 1)).resolve_right fun ⟨e, he⟩ => ?_
  have hi := (s.follows out n).machine ▸ (idle_history h n).left
  exact (hi.hold _ _).runFrame_error e he

theorem start_nap : ∃ s, start { romFile := "" } (some Cartridge.nap) none = .ok s ∧
    s.machine.Idle ∧ s.machine.Reachable := by
  obtain ⟨c, hc, hb, hr⟩ := Cartridge.ofImage_nap
  have hm : (Cartridge.ofImage Cartridge.nap).mapError SessionError.cartridge = .ok c := by
    rw [hc]
    rfl
  let o : Options := { romFile := "" }
  have hf : o.soundConfig.Fits := by decide
  let s : Session := { machine := .powerOn c o.soundConfig, held := o.heldMasks, keepsSave := false }
  refine ⟨s, ?_, ⟨rfl, fun _ => ⟨rfl, hr⟩⟩, .powerOn c _ (Machine.checkedPowerOn_eq hf)⟩
  simp only [start, hm, bind, Except.bind, pure, Except.pure, hb, Bool.false_and]
  exact if_neg (not_not.mpr hf)

-- The second frame of a session whose processor sleeps.
theorem frames_reach_screen_nap :
    ∃ s, start { romFile := "" } (some Cartridge.nap) none = .ok s ∧
      let p := (s.history {} 1).now
      let q := (s.history {} 2).now
      let r := s.calls {} 2
      r.error = none ∧ (∀ w ∈ q.writes, KeepsScreen w) ∧
      q.machine = r.session.machine ∧ q.host.host = r.output ∧
      (∀ x ∈ q.host.lines, Visible x.fst x.snd) ∧
      q.host.lines = p.host.lines ++
        .ofFn fun l : Fin Clock.visibleLines => (l.val, r.output.screen.rows[l]) := by
  obtain ⟨s, h, hi, hs⟩ := start_nap
  have he := error_of_idle hi hs {} 1
  have hw : ∀ w ∈ (s.history {} 2).now.writes, KeepsScreen w := by
    rw [(idle_history hi 2).right]
    exact fun w hm => absurd hm List.not_mem_nil
  obtain ⟨hm, ho, -, hv, hr⟩ := frames_reach_screen h {} 1
  exact ⟨s, h, he, hw, hm, ho, hv, hr he hw⟩

end Player.Session
end DotMatrix
