import BootFlow.Hardware.SerialLine

namespace BootFlow

/-! A serial line as console and keyboard. Of the console it has the text only:
there is no splash on the line, and a status line is a line like the others. -/

/-- A machine with a terminal at the end of one of its serial lines. -/
structure Terminal (σ : Type) where
  machine : σ
  line : SerialLine

namespace Terminal

variable {σ α : Type}

/-- Work with the line is work of the terminal. -/
def onLine (action : SerialLine → Action σ α) : Action (Terminal σ) α := do
  let terminal ← get
  let (answer, machine) := (action terminal.line).run terminal.machine
  set { terminal with machine }
  return answer

variable [Ports σ]

instance : Keyboard (Terminal σ) where
  pollKey := onLine SerialLine.pollKey

instance : Console (Terminal σ) where
  print text := onLine (·.sendText text)
  status text := onLine (·.status text)
  clear := onLine SerialLine.clear
  showSplash _ := return ()
  hideSplash := return ()
  splashActive _ := false
  showPaused := return ()

end Terminal

end BootFlow
