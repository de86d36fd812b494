import Mathlib.Data.Int.Order.Basic
import Mathlib.Data.List.Basic
import Mathlib.Order.MinMax

/-! The light of the sensor: the settings of `Light`, the commands it writes to the board, and
what they say. Values of type `int` are integers; a conversion to `unsigned char` is modulo 256. -/
namespace VisionSensor

/-- The bytes of a command. -/
abbrev Command := Vector UInt8 18

namespace BoardController

def COMMAND_ELEMENT_START : UInt8 := 0x02
def COMMAND_ELEMENT_OPTION : UInt8 := 0x00
def COMMAND_ELEMENT_END : UInt8 := 0x03

def calculateChecksum (fullCommand : Command) (startPosition endPosition : ℕ) : UInt8 :=
  (List.range' startPosition (endPosition + 1 - startPosition)).foldl
    (fun checksum i => checksum ^^^ fullCommand[i]?.getD 0) 0x00

/-- The loop up to the next position. -/
theorem calculateChecksum_succ (fullCommand : Command) {startPosition endPosition : ℕ}
    (h : startPosition ≤ endPosition + 1) :
    calculateChecksum fullCommand startPosition (endPosition + 1) =
      calculateChecksum fullCommand startPosition endPosition ^^^
        fullCommand[endPosition + 1]?.getD 0 := by
  have hlen : endPosition + 1 + 1 - startPosition = endPosition + 1 - startPosition + 1 := by omega
  have hlast : startPosition + 1 * (endPosition + 1 - startPosition) = endPosition + 1 := by omega
  rw [calculateChecksum, hlen, List.range'_concat, List.foldl_append, hlast]
  rfl

/-- A byte behind the end does not enter the checksum. -/
theorem calculateChecksum_set (fullCommand : Command) {startPosition endPosition i : ℕ}
    (hi : i < 18) (h : endPosition < i) (v : UInt8) :
    calculateChecksum (fullCommand.set i v hi) startPosition endPosition =
      calculateChecksum fullCommand startPosition endPosition := by
  unfold calculateChecksum
  apply List.foldl_ext
  intro checksum j hj
  rw [List.mem_range'_1] at hj
  rw [Vector.getElem?_set_ne]
  omega

/-- With its own checksum behind it, a range has the checksum zero. -/
theorem calculateChecksum_self (fullCommand : Command) {startPosition endPosition : ℕ}
    (h : startPosition ≤ endPosition + 1) (hend : endPosition + 1 < 18) :
    calculateChecksum (fullCommand.set (endPosition + 1)
      (calculateChecksum fullCommand startPosition endPosition) hend)
        startPosition (endPosition + 1) = 0 := by
  rw [calculateChecksum_succ _ h, calculateChecksum_set _ hend (Nat.lt_succ_self _),
    Vector.getElem?_set_self hend, Option.getD_some, UInt8.xor_self]

end BoardController

open BoardController

inductive LightState where
  | LIGHT_OFF | LIGHT_ON_MINIMUM | LIGHT_ON_MAXIMUM | LIGHT_ON_DIM_DOWN
  deriving DecidableEq, Repr

def LightState.code : LightState → UInt8
  | .LIGHT_OFF => 0x00
  | .LIGHT_ON_MINIMUM => 0x01
  | .LIGHT_ON_MAXIMUM => 0x02
  | .LIGHT_ON_DIM_DOWN => 0x03

structure Light where
  lightState : LightState
  brightnessMax : ℤ
  brightnessMin : ℤ
  dimTime : ℤ
  dim : UInt8
  command : Command

namespace Light

def DIM1 : UInt8 := 0x00
def DATA_SIZE : UInt8 := 0x0C
def COMMAND_NUMBER : UInt8 := 0x03
def COMMAND_ELEMENT_RESERVED : UInt8 := 0x00
def DATA_START_POSITION : ℕ := 1
def DATA_END_POSITION : ℕ := 15

/-- The constructor, which leaves the bytes of `command` as they are. -/
def new (command : Command) : Light := ⟨.LIGHT_OFF, 0xFF, 30, 1000, DIM1, command⟩

def checkProper8BitValue (value : ℤ) : ℤ := if value > 0xFF then 0xFF else value

def checkProper16BitValue (value : ℤ) : ℤ := if value > 0xFFFF then 0xFFFF else value

def getDefaultCommand (command : Command) : Command :=
  (((((((((((command.set 0 COMMAND_ELEMENT_START).set 1 COMMAND_ELEMENT_OPTION).set 2 DATA_SIZE).set
    3 COMMAND_NUMBER).set 10 COMMAND_ELEMENT_RESERVED).set 11 COMMAND_ELEMENT_RESERVED).set
    12 COMMAND_ELEMENT_RESERVED).set 13 COMMAND_ELEMENT_RESERVED).set
    14 COMMAND_ELEMENT_RESERVED).set 15 COMMAND_ELEMENT_RESERVED).set 17 COMMAND_ELEMENT_END)

/-- `properDimTime & 0xFF` and `(properDimTime >> 8) & 0xFF` are the two lower bytes, also of a
negative number. -/
def generateCommand (l : Light) (newLightState : UInt8) : Light :=
  let properDimTime := checkProper16BitValue l.dimTime
  { l with command := ((((((getDefaultCommand l.command).set 4 l.dim).set 5 newLightState).set
      6 (UInt8.ofInt (checkProper8BitValue l.brightnessMax))).set
      7 (UInt8.ofInt (checkProper8BitValue l.brightnessMin))).set
      8 (UInt8.ofInt (properDimTime % 256))).set 9 (UInt8.ofInt (properDimTime / 256 % 256)) }

/-- The command as it is written. -/
def sendCommand (l : Light) : Light :=
  { l with command :=
      l.command.set 16 (calculateChecksum l.command DATA_START_POSITION DATA_END_POSITION) }

/-- The body of the four methods that set the light state. -/
def light (lightState : LightState) (l : Light) : Light :=
  sendCommand (generateCommand { l with lightState } lightState.code)

/-! The public methods return the light, and whether its command has been written. -/

def onDimDown (l : Light) : Light × Bool := (l.light .LIGHT_ON_DIM_DOWN, true)

def onMaximum (l : Light) : Light × Bool := (l.light .LIGHT_ON_MAXIMUM, true)

def onMinimum (l : Light) : Light × Bool := (l.light .LIGHT_ON_MINIMUM, true)

def off (l : Light) : Light × Bool := (l.light .LIGHT_OFF, true)

def setBrightnessMax (l : Light) (newBrightnessMax : ℤ) : Light × Bool :=
  let l := { l with brightnessMax := newBrightnessMax }
  if l.lightState = .LIGHT_ON_MAXIMUM then l.onMaximum else (l, false)

def setBrightnessMin (l : Light) (newBrightnessMin : ℤ) : Light × Bool :=
  let l := { l with brightnessMin := newBrightnessMin }
  if l.lightState = .LIGHT_ON_MINIMUM then l.onMinimum else (l, false)

def setDimTime (l : Light) (newDimTime : ℤ) : Light × Bool := ({ l with dimTime := newDimTime }, false)

/-- A call of a public method. -/
inductive Call where
  | onDimDown | onMaximum | onMinimum | off
  | setBrightnessMax (newBrightnessMax : ℤ)
  | setBrightnessMin (newBrightnessMin : ℤ)
  | setDimTime (newDimTime : ℤ)
  deriving DecidableEq, Repr

def call (l : Light) : Call → Light × Bool
  | .onDimDown => l.onDimDown
  | .onMaximum => l.onMaximum
  | .onMinimum => l.onMinimum
  | .off => l.off
  | .setBrightnessMax v => l.setBrightnessMax v
  | .setBrightnessMin v => l.setBrightnessMin v
  | .setDimTime v => l.setDimTime v

/-- The lights whose commands are written in a run, each as it is then. -/
def writes : Light → List Call → List Light
  | _, [] => []
  | l, c :: calls => (if (l.call c).2 then [(l.call c).1] else []) ++ writes (l.call c).1 calls

/-- A value brought into the range from 0 to `top`. -/
def clamp (top value : ℤ) : ℤ := max 0 (min value top)

/-- The command of a light is framed and says what its settings are. -/
structure Encodes (l : Light) : Prop where
  start : l.command[0] = COMMAND_ELEMENT_START
  finish : l.command[17] = COMMAND_ELEMENT_END
  checksum : calculateChecksum l.command 1 16 = 0
  lightState : l.command[5] = l.lightState.code
  brightnessMax : (l.command[6].toNat : ℤ) = clamp 0xFF l.brightnessMax
  brightnessMin : (l.command[7].toNat : ℤ) = clamp 0xFF l.brightnessMin
  dimTime : (l.command[8].toNat + 256 * l.command[9].toNat : ℤ) = clamp 0xFFFF l.dimTime

/-- No setting is a negative number that becomes another one when its upper bytes are cut off. -/
structure Unwrapped (l : Light) : Prop where
  brightnessMax : 0 ≤ l.brightnessMax ∨ 256 ∣ l.brightnessMax
  brightnessMin : 0 ≤ l.brightnessMin ∨ 256 ∣ l.brightnessMin
  dimTime : 0 ≤ l.dimTime ∨ 65536 ∣ l.dimTime

theorem toNat_ofInt (v : ℤ) : ((UInt8.ofInt v).toNat : ℤ) = v % 256 := by
  have hnat : (UInt8.ofInt v).toNat = (v % 256).toNat % 256 := rfl
  omega

/-- The upper end of the range is checked; below it a byte is right only by accident. -/
theorem brightness_byte_iff (v : ℤ) :
    ((UInt8.ofInt (checkProper8BitValue v)).toNat : ℤ) = clamp 0xFF v ↔ 0 ≤ v ∨ 256 ∣ v := by
  rw [toNat_ofInt, checkProper8BitValue, clamp]
  split_ifs <;> omega

theorem dimTime_bytes_iff (v : ℤ) :
    ((UInt8.ofInt (checkProper16BitValue v % 256)).toNat +
      256 * (UInt8.ofInt (checkProper16BitValue v / 256 % 256)).toNat : ℤ) = clamp 0xFFFF v ↔
      0 ≤ v ∨ 65536 ∣ v := by
  rw [toNat_ofInt, toNat_ofInt, checkProper16BitValue, clamp]
  split_ifs <;> omega

/-- What each method writes is right exactly when no setting wraps. -/
theorem light_encodes_iff (l : Light) (s : LightState) : (l.light s).Encodes ↔ l.Unwrapped := by
  have hstart : (l.light s).command[0] = COMMAND_ELEMENT_START := by
    simp [light, sendCommand, generateCommand, getDefaultCommand]
  have hfinish : (l.light s).command[17] = COMMAND_ELEMENT_END := by
    simp [light, sendCommand, generateCommand, getDefaultCommand]
  have hstate : (l.light s).command[5] = s.code := by
    simp [light, sendCommand, generateCommand]
  have hmax : (l.light s).command[6] = UInt8.ofInt (checkProper8BitValue l.brightnessMax) := by
    simp [light, sendCommand, generateCommand]
  have hmin : (l.light s).command[7] = UInt8.ofInt (checkProper8BitValue l.brightnessMin) := by
    simp [light, sendCommand, generateCommand]
  have hlow : (l.light s).command[8] = UInt8.ofInt (checkProper16BitValue l.dimTime % 256) := by
    simp [light, sendCommand, generateCommand]
  have hhigh : (l.light s).command[9] =
      UInt8.ofInt (checkProper16BitValue l.dimTime / 256 % 256) := by
    simp [light, sendCommand, generateCommand]
  constructor
  · intro h
    have hbright := h.brightnessMax
    have hdark := h.brightnessMin
    have htime := h.dimTime
    rw [hmax] at hbright
    rw [hmin] at hdark
    rw [hlow, hhigh] at htime
    exact ⟨(brightness_byte_iff _).mp hbright, (brightness_byte_iff _).mp hdark,
      (dimTime_bytes_iff _).mp htime⟩
  · intro h
    refine ⟨hstart, hfinish, calculateChecksum_self _ (by decide) (by decide), hstate, ?_, ?_, ?_⟩
    · rw [hmax]
      exact (brightness_byte_iff _).mpr h.brightnessMax
    · rw [hmin]
      exact (brightness_byte_iff _).mpr h.brightnessMin
    · rw [hlow, hhigh]
      exact (dimTime_bytes_iff _).mpr h.dimTime

/-- The settings are still those of the light the command was made for. -/
theorem light_unwrapped_iff (l : Light) (s : LightState) : (l.light s).Unwrapped ↔ l.Unwrapped :=
  ⟨fun h => ⟨h.1, h.2, h.3⟩, fun h => ⟨h.1, h.2, h.3⟩⟩

theorem call_encodes_iff {l : Light} {c : Call} (hwritten : (l.call c).2 = true) :
    (l.call c).1.Encodes ↔ (l.call c).1.Unwrapped := by
  have hlight : ∀ (l : Light) s, (l.light s).Encodes ↔ (l.light s).Unwrapped := by
    intro l s
    rw [light_encodes_iff, light_unwrapped_iff]
  cases c with
  | onDimDown => exact hlight _ _
  | onMaximum => exact hlight _ _
  | onMinimum => exact hlight _ _
  | off => exact hlight _ _
  | setBrightnessMax v =>
    simp only [call, setBrightnessMax] at hwritten ⊢
    split_ifs at hwritten ⊢
    exact hlight _ _
  | setBrightnessMin v =>
    simp only [call, setBrightnessMin] at hwritten ⊢
    split_ifs at hwritten ⊢
    exact hlight _ _
  | setDimTime v => cases hwritten

theorem writes_encodes_iff (l : Light) (calls : List Call) :
    ∀ w ∈ writes l calls, (w.Encodes ↔ w.Unwrapped) := by
  induction calls generalizing l with
  | nil => simp [writes]
  | cons c calls ih =>
    intro w hw
    rw [writes, List.mem_append] at hw
    rcases hw with hw | hw
    · split_ifs at hw with hwritten
      · obtain rfl := List.mem_singleton.mp hw
        exact call_encodes_iff hwritten
      · cases hw
    · exact ih _ w hw

/-- The arguments a call gives to the three setters. -/
def Call.newBrightnessMax : Call → Option ℤ
  | .setBrightnessMax v => some v
  | _ => none

def Call.newBrightnessMin : Call → Option ℤ
  | .setBrightnessMin v => some v
  | _ => none

def Call.newDimTime : Call → Option ℤ
  | .setDimTime v => some v
  | _ => none

/-- The argument last given in the calls, or the value before. -/
def lastSet (arg : Call → Option ℤ) (value : ℤ) (calls : List Call) : ℤ :=
  (calls.filterMap arg).getLast?.getD value

/-- The settings of `w` are those of `l` with what the calls have set since. -/
structure SetBy (l : Light) (calls : List Call) (w : Light) : Prop where
  brightnessMax : w.brightnessMax = lastSet Call.newBrightnessMax l.brightnessMax calls
  brightnessMin : w.brightnessMin = lastSet Call.newBrightnessMin l.brightnessMin calls
  dimTime : w.dimTime = lastSet Call.newDimTime l.dimTime calls

theorem lastSet_cons (arg : Call → Option ℤ) (value : ℤ) (c : Call) (calls : List Call) :
    lastSet arg value (c :: calls) = lastSet arg (lastSet arg value [c]) calls := by
  unfold lastSet
  rw [List.filterMap_cons]
  cases harg : arg c with
  | none => simp [harg]
  | some v => simp [harg, List.getLast?_cons]

theorem call_setBy (l : Light) (c : Call) : SetBy l [c] (l.call c).1 := by
  cases c with
  | onDimDown | onMaximum | onMinimum | off | setDimTime v => exact ⟨rfl, rfl, rfl⟩
  | setBrightnessMax v =>
    simp only [call, setBrightnessMax]
    split_ifs <;> exact ⟨rfl, rfl, rfl⟩
  | setBrightnessMin v =>
    simp only [call, setBrightnessMin]
    split_ifs <;> exact ⟨rfl, rfl, rfl⟩

theorem SetBy.cons {l w : Light} {c : Call} {calls : List Call} (h : SetBy (l.call c).1 calls w) :
    SetBy l (c :: calls) w where
  brightnessMax := by rw [lastSet_cons, ← (call_setBy l c).brightnessMax, h.brightnessMax]
  brightnessMin := by rw [lastSet_cons, ← (call_setBy l c).brightnessMin, h.brightnessMin]
  dimTime := by rw [lastSet_cons, ← (call_setBy l c).dimTime, h.dimTime]

/-- The light behind the calls. -/
def after (l : Light) (calls : List Call) : Light := calls.foldl (fun l c => (l.call c).1) l

/-- The settings are the arguments last given to the setters. -/
theorem after_setBy (l : Light) (calls : List Call) : SetBy l calls (l.after calls) := by
  induction calls generalizing l with
  | nil => exact ⟨rfl, rfl, rfl⟩
  | cons c calls ih => exact (ih _).cons

/-- What is written is the light behind the calls up to the one that writes, with the settings
last given in these calls. -/
theorem writes_setBy (l : Light) (calls : List Call) :
    ∀ w ∈ writes l calls, ∃ done, done <+: calls ∧ w = l.after done ∧ SetBy l done w := by
  induction calls generalizing l with
  | nil => simp [writes]
  | cons c calls ih =>
    intro w hw
    rw [writes, List.mem_append] at hw
    rcases hw with hw | hw
    · split_ifs at hw with hwritten
      · obtain rfl := List.mem_singleton.mp hw
        exact ⟨[c], List.prefix_append [c] calls, rfl, after_setBy l [c]⟩
      · cases hw
    · obtain ⟨done, hdone, hafter, hset⟩ := ih _ w hw
      exact ⟨c :: done, List.cons_prefix_cons.mpr ⟨rfl, hdone⟩, hafter, hset.cons⟩

/-- Every command written in a run says what the settings are exactly when no setting that is not
in its range wraps at one of the writes. -/
theorem commands_encode_settings_iff (command : Command) (calls : List Call) :
    (∀ w ∈ writes (new command) calls, w.Encodes) ↔
      ∀ w ∈ writes (new command) calls, w.Unwrapped := by
  constructor
  · intro h w hw
    exact (writes_encodes_iff _ _ w hw).mp (h w hw)
  · intro h w hw
    exact (writes_encodes_iff _ _ w hw).mpr (h w hw)

/-- A minimum of -1 is written as the full brightness. -/
theorem negative_minimum_wraps :
    ∃ w ∈ writes (new (Vector.replicate 18 0)) [.setBrightnessMin (-1), .onMinimum],
      w.brightnessMin = -1 ∧ w.command[7] = 0xFF ∧ ¬ w.Encodes := by
  refine ⟨_, List.mem_singleton.mpr rfl, rfl, by decide, ?_⟩
  intro h
  have hbyte := h.brightnessMin
  revert hbyte
  decide

end Light
end VisionSensor
