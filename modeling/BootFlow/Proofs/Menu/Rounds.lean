import BootFlow.Proofs.Menu.Selection

namespace BootFlow.Menu

open Clock Console Keyboard Logging Waiting

/-! The device list waits for its operator in rounds, each of which ends it or passes over a key. -/

variable {σ : Type} [Keyboard σ] [Clock σ] [Console σ] {config : Config} {patience : Nat} {session chosen : Session}
  {before after : σ}

theorem awaitKey_parts {timeout : Timeout} {scan : Option UInt8}
    (ended : awaitKey patience timeout before = some (scan, after)) :
    ∃ heard, Keystroke.await patience timeout (beginInputWait before).2 = some (scan, heard) ∧
      after = (endInputWait heard).2 := by
  have rest := perform_bind_eq_some.mp ended
  obtain ⟨_, heard, awaited, rest⟩ := bind_eq_some.mp rest
  have answered := perform_bind_eq_some.mp rest
  cases answered
  exact ⟨heard, awaited, rfl⟩

/-- How a round comes to its end, with so many rounds to go. -/
inductive Round (config : Config) (patience : Nat) (escapeFrom : Deadline) (session : Session) (rounds : Nat)
    (before : σ) : Session → σ → Prop
  | silent {after : σ} (awaited : awaitKey patience (.millis config.selectionTimeout) before = some (none, after)) :
      Round config patience escapeFrom session rounds before session after
  | kept {scan : UInt8} {heard replied : σ}
      (awaited : awaitKey patience (.millis config.selectionTimeout) before = some (some scan, heard))
      (replies : reply escapeFrom session.registry.candidates.length scan heard = (.keep, replied)) :
      Round config patience escapeFrom session rounds before session (print "\n" replied).2
  | chosen {scan : UInt8} {position : Nat} {heard replied : σ}
      (awaited : awaitKey patience (.millis config.selectionTimeout) before = some (some scan, heard))
      (replies : reply escapeFrom session.registry.candidates.length scan heard = (.choose position, replied)) :
      Round config patience escapeFrom session rounds before
        { session with
          registry := session.registry.promote position
          selection := position
          rule := none
          operatorChoice := true }
        (choose session position (print "\n" replied).2).2
  | ignored {scan : UInt8} {heard replied after : σ} {chosen : Session}
      (awaited : awaitKey patience (.millis config.selectionTimeout) before = some (some scan, heard))
      (replies : reply escapeFrom session.registry.candidates.length scan heard = (.ignore, replied))
      (rest : awaitSelection config patience escapeFrom session rounds replied = some (chosen, after)) :
      Round config patience escapeFrom session rounds before chosen after

theorem awaitSelection_round {escapeFrom : Deadline} {rounds : Nat}
    (ended : awaitSelection config patience escapeFrom session (rounds + 1) before = some (chosen, after)) :
    Round config patience escapeFrom session rounds before chosen after := by
  obtain ⟨scan, heard, awaited, rest⟩ := bind_eq_some.mp ended
  cases scan with
  | none =>
      cases rest
      exact .silent awaited
  | some scan =>
      obtain ⟨answer, replied, replies, rest⟩ := bind_eq_some.mp rest
      have replies := Option.some.inj replies
      cases answer with
      | keep =>
          cases rest
          exact .kept awaited replies
      | choose position =>
          have chooses := perform_bind_eq_some.mp rest
          obtain ⟨rfl, rfl⟩ := perform_eq_some.mp chooses
          rw [choose_answer]
          exact .chosen awaited replies
      | ignore => exact .ignored awaited replies rest

theorem deviceList_parts [Logging σ] (ended : deviceList config patience session before = some (chosen, after)) :
    ∃ drained left, Keystroke.drain patience before = some ((), drained) ∧
      awaitSelection config patience (showDevices config session drained).1 session patience
        (move .deviceList .awaitSelection (showDevices config session drained).2).2 = some (chosen, left) ∧
      after = (leave .awaitSelection chosen left).2 := by
  obtain ⟨_, drained, drains, rest⟩ := bind_eq_some.mp ended
  have rest := perform_bind_eq_some.mp rest
  have rest := perform_bind_eq_some.mp rest
  obtain ⟨_, left, awaited, leaves⟩ := bind_eq_some.mp rest
  obtain ⟨rfl, rfl⟩ := perform_eq_some.mp leaves
  exact ⟨drained, left, drains, awaited, rfl⟩

end BootFlow.Menu
