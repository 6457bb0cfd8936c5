import BootFlow.Config
import BootFlow.Proofs.Text.Reading

namespace BootFlow

open Text

/-! A setting is the number that its text writes between blanks, or else the default. Times are kept
to the low half of the number. -/

namespace Settings

variable {settings : Settings} {name text : String} {default value : Nat}

theorem number_of_reads (present : settings name = some text)
    (read : readNumber? (trim text.toList) = some value) : settings.number name default = value := by
  rw [number, present, Option.bind_some, read, Option.getD_some]

theorem number_of_unread (unread : ∀ text, settings name = some text → readNumber? (trim text.toList) = none) :
    settings.number name default = default := by
  rw [number]
  cases present : settings name with
  | none => rfl
  | some text => rw [Option.bind_some, unread text present, Option.getD_none]

/-- Whatever the text, it is read by the grammar of numbers below `2 ^ 64`. Each setting has the
number that its file holds between blanks, and the default where there is no file or no number. -/
theorem numbers_by_grammar :
    (∀ (text : String) (value : Nat),
      readNumber? text.toList = some value ↔ NumberText text.toList value ∧ value < 2 ^ 64) ∧
    (∀ text : String, readNumber? text.toList = none ↔ ∀ value, NumberText text.toList value → 2 ^ 64 ≤ value) ∧
    (∀ value < 2 ^ 64, readNumber? (decimal value).toList = some value ∧
      readNumber? ("0x" ++ hex value).toList = some value ∧
      ∀ width, readNumber? ("0x" ++ hexPadded width value).toList = some value) ∧
    (∀ text : String, ∃! core, Trims text.toList core) ∧
    ∀ (settings : Settings) (name : String) (default : Nat),
      (∀ text core value, settings name = some text → Trims text.toList core → NumberText core value →
        value < 2 ^ 64 → settings.number name default = value) ∧
      ((∀ text core value, settings name = some text → Trims text.toList core → NumberText core value →
        2 ^ 64 ≤ value) → settings.number name default = default) := by
  refine ⟨fun _ _ => readNumber?_eq_some_iff, fun _ => readNumber?_eq_none_iff, ?_, ?_, ?_⟩
  · intro value fits
    have padded := readNumber?_hexPadded fits
    exact ⟨readNumber?_decimal fits, hexPadded_zero value ▸ padded 0, padded⟩
  · exact fun text => ⟨_, trims_trim text.toList, fun core trims => trims.eq_trim⟩
  · intro settings name default
    constructor
    · rintro text core value present trims written fits
      refine number_of_reads present (readNumber?_eq_some_iff.mpr ⟨?_, fits⟩)
      rwa [← trims.eq_trim]
    · intro beyond
      refine number_of_unread fun text present => readNumber?_eq_none_iff.mpr fun value written => ?_
      exact beyond text _ value present (trims_trim _) written

/-- An ideographic space and a line end surround the number. -/
theorem numbers_by_grammar_spaced :
    let settings : Settings := fun _ => some "\u3000 0X+00fF\r\n"
    Trims "\u3000 0X+00fF\r\n".toList "0X+00fF".toList ∧ NumberText "0X+00fF".toList 255 ∧
      settings.number "etc/boot-menu-wait" 2500 = 255 ∧
      readNumber? (decimal (2 ^ 64 - 1)).toList = some (2 ^ 64 - 1) := by
  intro settings
  have core : trim "\u3000 0X+00fF\r\n".toList = "0X+00fF".toList := by decide
  have trims := core ▸ trims_trim "\u3000 0X+00fF\r\n".toList
  obtain ⟨reads, -, renders, -, numbers⟩ := numbers_by_grammar
  have written : NumberText "0X+00fF".toList 255 := ((reads _ 255).mp (by decide)).1
  exact ⟨trims, written, (numbers settings _ _).1 _ _ _ rfl trims written (by decide),
    (renders (2 ^ 64 - 1) (by decide)).1⟩

/-- The file of this setting holds a number. -/
def Holds (settings : Settings) (name : String) (value : Nat) : Prop :=
  ∃ text, settings name = some text ∧ readNumber? (trim text.toList) = some value

theorem Holds.number (holds : settings.Holds name value) : settings.number name default = value := by
  obtain ⟨text, present, read⟩ := holds
  exact number_of_reads present read

end Settings

namespace RetryPolicy

/-- The largest time that can be configured stands for no retry, and it alone. No other time becomes
shorter. -/
def Honours (policy : RetryPolicy) (configured : Nat) : Prop :=
  (policy = .never ↔ configured = 0xffffffff) ∧
    ∀ millis, policy = .after millis → min configured 0xfffffffe ≤ millis.toNat

theorem ofMillis_never_iff {millis : UInt32} : ofMillis millis = .never ↔ millis.toNat = 0xffffffff := by
  have largest : millis = 0xffffffff ↔ millis.toNat = 0xffffffff := UInt32.toNat_inj.symm
  unfold ofMillis
  split <;> simp_all

theorem ofMillis_after_iff {millis wait : UInt32} :
    ofMillis millis = .after wait ↔ wait = millis ∧ millis.toNat ≠ 0xffffffff := by
  have largest : millis = 0xffffffff ↔ millis.toNat = 0xffffffff := UInt32.toNat_inj.symm
  unfold ofMillis
  split <;> simp_all [eq_comm]

/-- Only the low half of a time counts, so a time that needs more is honoured just where what is left
of it is the longest wait. -/
theorem honours_ofMillis_iff (configured : Nat) :
    (ofMillis (UInt32.ofNat configured)).Honours configured ↔
      configured < 2 ^ 32 ∨ configured % 2 ^ 32 = 0xfffffffe := by
  have low : (UInt32.ofNat configured).toNat = configured % 2 ^ 32 := UInt32.toNat_ofNat'
  simp only [Honours, ofMillis_never_iff, ofMillis_after_iff, and_imp, forall_eq, low]
  omega

end RetryPolicy

namespace Config

open Settings

/-- Loading takes the low thirty-two bits of each time, so a time below `2 ^ 32` is kept as it is,
and a longer one is honoured only where these bits happen to be the longest wait. -/
theorem load_narrows_times (settings : Settings) :
    (∀ configured, settings.Holds failWaitFile configured →
      ((load settings).retry = .never ↔ configured % 2 ^ 32 = 0xffffffff) ∧
      (∀ millis, (load settings).retry = .after millis ↔
        millis.toNat = configured % 2 ^ 32 ∧ configured % 2 ^ 32 ≠ 0xffffffff) ∧
      ((load settings).retry.Honours configured ↔ configured < 2 ^ 32 ∨ configured % 2 ^ 32 = 0xfffffffe)) ∧
    ∀ configured, settings.Holds menuWaitFile configured →
      (load settings).menuWait.toNat = configured % 2 ^ 32 ∧
      (min configured 0xffffffff ≤ (load settings).menuWait.toNat ↔
        configured < 2 ^ 32 ∨ configured % 2 ^ 32 = 0xffffffff) := by
  have low (configured : Nat) : (UInt32.ofNat configured).toNat = configured % 2 ^ 32 := UInt32.toNat_ofNat'
  constructor
  · intro configured holds
    have retry : (load settings).retry = .ofMillis (UInt32.ofNat configured) := by
      rw [load, holds.number]
    rw [retry]
    refine ⟨?_, fun millis => ?_, RetryPolicy.honours_ofMillis_iff configured⟩
    · rw [RetryPolicy.ofMillis_never_iff, low]
    · rw [RetryPolicy.ofMillis_after_iff, ← UInt32.toNat_inj, low]
  · intro configured holds
    have wait : (load settings).menuWait.toNat = configured % 2 ^ 32 := by
      rw [load, holds.number, low]
    rw [wait]
    omega

/-- A retry time with thirty-three bits set, and a menu time with none but the thirty-third. -/
def overlong : Settings := fun name =>
  if name = failWaitFile then some "0x1ffffffff" else if name = menuWaitFile then some "0x100000000" else none

theorem load_narrows_times_overlong :
    overlong.Holds failWaitFile 0x1ffffffff ∧ overlong.Holds menuWaitFile 0x100000000 ∧
      (load overlong).retry = .never ∧ (load overlong).menuWait.toNat = 0 := by
  have fails : overlong.Holds failWaitFile 0x1ffffffff := ⟨_, rfl, by decide⟩
  have waits : overlong.Holds menuWaitFile 0x100000000 := ⟨_, rfl, by decide⟩
  obtain ⟨retries, menu⟩ := load_narrows_times overlong
  exact ⟨fails, waits, (retries _ fails).1.mpr (by decide), (menu _ waits).1⟩

/-- A retry time that is longer than the longest wait can switch retries off. -/
theorem overlong_retry_lost :
    ¬∀ settings : Settings,
      (∀ configured, settings.Holds failWaitFile configured → (load settings).retry.Honours configured) ∧
      ∀ configured, settings.Holds menuWaitFile configured →
        min configured 0xffffffff ≤ (load settings).menuWait.toNat := by
  intro always
  have honours := (always overlong).1 0x1ffffffff ⟨_, rfl, by decide⟩
  have never : (load overlong).retry = .never := by decide
  exact absurd (honours.1.mp never) (by decide)

end Config

end BootFlow
