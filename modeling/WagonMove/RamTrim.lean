import Mathlib.Data.Rat.Init
import WagonMove.Text
import WagonMove.World

/-!
# The memory trimmer

`AutoRamTrim.ahk` trims the working sets of the Roblox processes of its own Windows session. Its
timer runs `AutoRamTrim`, which first sets the timer anew with the interval of the configuration.
Integers have 64 bits; those that Windows hands out are read with a sign.
-/

namespace WagonMove.RamTrim

open Prog

def wrap64 (n : ℤ) : ℤ := n.bmod (2 ^ 64)

/-- What Windows and the configuration answer; each question takes the next answer. -/
structure Env where
  /-- How far the clock has moved when `SetTimer` is called. -/
  drift : ℕ → ℕ
  /-- The value of `IntervalMinutes`, unless the file, the section or the key is missing. -/
  intervalMinutes : ℕ → Option String
  /-- What `Integer` makes of a number that does not fit 64 bits. -/
  outOfRange : String → BitVec 64
  currentProcessId : ℕ
  processIdToSessionId : ℕ → ℕ → Option ℕ
  winGetList : ℕ → List ℕ
  /-- `none` if the window is gone. -/
  winGetPID : ℕ → ℕ → Option ℕ
  /-- A handle, or 0. -/
  openProcess : ℕ → ℕ → ℕ
  /-- `WorkingSetSize`, unless `GetProcessMemoryInfo` fails. -/
  getProcessMemoryInfo : ℕ → ℕ → Option (BitVec 64)
  iniWrite : ℕ → Option Err

structure Timer where
  period : ℤ
  /-- When the countdown began: at `SetTimer`, or when the timer ran last. -/
  since : ℕ
  deriving DecidableEq

inductive Event where
  | configured (text : String)
  | timerSet (period : ℤ) (time : ℕ)
  /-- The timer starts `AutoRamTrim`. -/
  | fired (time : ℕ)
  /-- What `ProcessIdToSessionId` has found, unless it has failed. -/
  | ownSession (session : Option ℕ)
  | session (pid : ℕ) (session : Option ℕ)
  | opened (pid hProcess : ℕ)
  /-- What `GetProcessMemoryInfo` has found, unless it has failed. -/
  | measured (hProcess : ℕ) (wss : Option ℤ)
  | emptied (hProcess : ℕ)
  | closed (hProcess : ℕ)
  | wrote (savedMB : ℚ)
  deriving DecidableEq

/-- The trace lists events newest first; `result` is `SavedMB` in the file for the program. -/
structure St where
  now : ℕ := 0
  asked : ℕ := 0
  timer : Option Timer := none
  result : Option ℚ := none
  trace : List Event := []

abbrev Trim (α : Type) := Prog Env St Err α

def St.record (e : Event) (s : St) : St := { s with trace := e :: s.trace }

/-! ## Built-ins -/

def log (e : Event) : Trim Unit := update (St.record e)

def ask {α : Type} (q : Env → ℕ → α) : Trim α :=
  ⟨fun env s => (.ok (q env s.asked), { s with asked := s.asked + 1 })⟩

def constant {α : Type} (q : Env → α) : Trim α := ⟨fun env s => (.ok (q env), s)⟩

/-- `Integer` of a string; `none` where it throws. -/
def Env.integer (env : Env) (text : String) : Option ℤ :=
  (WagonMove.integer text).map fun n =>
    if -2 ^ 63 ≤ n ∧ n < 2 ^ 63 then n else (env.outOfRange text).toInt

/-- `SetTimer(AutoRamTrim, period)`; a period of 0 deletes the timer. -/
def setTimer (period : ℤ) : Trim Unit := do
  let d ← ask Env.drift
  update fun s => { s with now := s.now + d }
  if period = 0 then update fun s => { s with timer := none }
  else
    let now ← gets St.now
    log (.timerSet period now)
    update fun s => { s with timer := some ⟨period, now⟩ }

/-- `ProcessIdToSessionId` leaves the 0 in the variable alone if it fails. -/
def sessionOf (event : Option ℕ → Event) (pid : ℕ) : Trim ℕ := do
  let session ← ask fun env n => env.processIdToSessionId n pid
  log (event session)
  pure (session.getD 0)

def winGetPID (hwnd : ℕ) : Trim ℕ := do
  match ← ask fun env n => env.winGetPID n hwnd with
  | none => raise ⟨"Target window not found."⟩
  | some pid => pure pid

def openProcess (pid : ℕ) : Trim ℕ := do
  let hProcess ← ask fun env n => env.openProcess n pid
  log (.opened pid hProcess)
  pure hProcess

/-- A fresh buffer, `GetProcessMemoryInfo`, and `NumGet` at offset 16, where a call that fails
leaves the 0 alone. -/
def workingSetSize (hProcess : ℕ) : Trim ℤ := do
  let wss ← ask fun env n => env.getProcessMemoryInfo n hProcess
  log (.measured hProcess (wss.map BitVec.toInt))
  pure ((wss.map BitVec.toInt).getD 0)

def emptyWorkingSet (hProcess : ℕ) : Trim Unit := log (.emptied hProcess)

def closeHandle (hProcess : ℕ) : Trim Unit := log (.closed hProcess)

/-- `IniWrite`; the quotient is exact for totals below 2 ^ 53 bytes. -/
def iniWrite (savedMB : ℚ) : Trim Unit := do
  match ← ask Env.iniWrite with
  | some e => raise e
  | none =>
    log (.wrote savedMB)
    update fun s => { s with result := some savedMB }

/-! ## The script -/

/-- `intervalMs` for the minutes that are configured. -/
def intervalMs (minutes : ℤ) : ℤ :=
  let intervalMs := wrap64 (minutes * 60000)
  let intervalMs := if intervalMs < 120000 then 120000 else intervalMs
  if 900000 < intervalMs then 900000 else intervalMs

def scheduleTimer : Trim Unit := do
  let rawVal := (← ask Env.intervalMinutes).getD "6"
  log (.configured rawVal)
  match ← constant fun env => env.integer rawVal with
  | none => raise ⟨"Expected a Number but got a String."⟩
  | some minutes =>
    setTimer 0
    setTimer (intervalMs minutes)

/-- One pass of the `for` loop, from `totalSavedBytes` to its new value. -/
def trimWindow (mySession hwnd : ℕ) (totalSavedBytes : ℤ) : Trim ℤ := do
  let pid ← winGetPID hwnd
  let procSession ← sessionOf (.session pid) pid
  if procSession ≠ mySession then pure totalSavedBytes
  else
    let hProcess ← openProcess pid
    if hProcess = 0 then pure totalSavedBytes
    else
      let wssBefore ← workingSetSize hProcess
      emptyWorkingSet hProcess
      let wssAfter ← workingSetSize hProcess
      closeHandle hProcess
      let saved := wrap64 (wssBefore - wssAfter)
      if 0 < saved then pure (wrap64 (totalSavedBytes + saved))
      else pure totalSavedBytes

def trimWindows (mySession : ℕ) : List ℕ → ℤ → Trim ℤ
  | [], totalSavedBytes => pure totalSavedBytes
  | hwnd :: robloxList, totalSavedBytes => do
    let totalSavedBytes ← trimWindow mySession hwnd totalSavedBytes
    trimWindows mySession robloxList totalSavedBytes

def autoRamTrim : Trim Unit := do
  scheduleTimer
  let myPid ← constant Env.currentProcessId
  let mySession ← sessionOf .ownSession myPid
  let robloxList ← ask Env.winGetList
  if robloxList = [] then pure ()
  else
    let totalSavedBytes ← trimWindows mySession robloxList 0
    iniWrite ((totalSavedBytes : ℚ) / 1048576)

/-! ## The life of the script -/

/-- The timer starts its thread at `time`. -/
def St.fire (time : ℕ) (s : St) : St :=
  { s with
    now := time
    timer := s.timer.map fun timer => { timer with since := time }
    trace := .fired time :: s.trace }

/-- The states between two threads: the script has set its timer when it was started, and after
that the timer has run `AutoRamTrim` some number of times. A thread that an error ends leaves what
it has done so far. -/
inductive Life (env : Env) : St → Prop
  | boot {s : St} (h : scheduleTimer.run env {} = (.ok (), s)) : Life env s
  | cycle {s : St} (h : Life env s) {timer : Timer} {time : ℕ} (htimer : s.timer = some timer)
      (hnow : s.now ≤ time) (hdue : timer.since + timer.period ≤ time) :
      Life env (autoRamTrim.run env (s.fire time)).2

end WagonMove.RamTrim
