import WagonMove.Keys

/-!
# The signal file

`WriteSignalAndExit`, the same in both scripts but for the name of the fallback file.
-/

namespace WagonMove

open Prog

def Status.text : Status → String
  | .ok => "ok"
  | .error => "error"

def signalContent (status : Status) (detail : String) (tick : ℕ) : String :=
  "[Result]\nstatus=" ++ status.text ++ "\ndetail=" ++ detail ++ "\ntick=" ++ toString tick ++ "\n"

theorem toList_signalContent (status : Status) (detail : String) (tick : ℕ) :
    (signalContent status detail tick).toList = "[Result]\nstatus=".toList ++ (status.text.toList ++
      ("\ndetail=".toList ++ (detail.toList ++ ("\ntick=".toList ++ ((toString tick).toList ++
        "\n".toList))))) := by
  have happend (a b c d e f g : String) : (a ++ b ++ c ++ d ++ e ++ f ++ g).toList =
      a.toList ++ (b.toList ++ (c.toList ++ (d.toList ++ (e.toList ++ (f.toList ++
        g.toList))))) := by
    simp only [String.toList_append, List.append_assoc]
  exact happend _ _ _ _ _ _ _

/-- The file name both scripts use under `A_ScriptDir` and `A_Temp`. -/
def doneFile : ScriptFile → String
  | .wagonMove => "\\wagon_done.ini"
  | .alienWagonMove => "\\alien_wagon_done.ini"

def St.setFile (path : String) (content : Option String) (s : St) : St :=
  { s with files := fun p => if p = path then content else s.files p }

/-- `FileAppend`, which starts from an empty file if there is none. -/
def fileAppend (a : Attempt) (path content : String) : Ahk Bool := do
  let ops ← constant fun env => env.files a
  log (.fileAppend a ops.append)
  if ops.append then
    let old ← gets fun s => s.files path
    update (St.setFile path (some (old.getD "" ++ content)))
    pure true
  else pure false

/-- One `try` block of `WriteSignalAndExit`; an operation that fails leaves the block. -/
def tryWrite (a : Attempt) (path content : String) : Ahk Bool := do
  let ops ← constant fun env => env.files a
  log (.fileExist a)
  if !ops.exist then pure false
  else
    if (← gets fun s => s.files path).isSome then
      log (.fileDelete a ops.delete)
      if !ops.delete then pure false
      else
        update (St.setFile path none)
        fileAppend a path content
    else fileAppend a path content

def writeSignalAndExit {α : Type} (f : ScriptFile) (status : Status) (detail : String := "") :
    Ahk α := do
  log (.signal status detail)
  hideSpecialMarker
  hideStatusOverlay
  let tick ← tickCount
  let content := signalContent status detail tick
  let path ← gets St.signalFile
  let temp ← constant Env.temp
  let written ← tryWrite .main path content
  let _ ← (if written then pure written else tryWrite .fallback (temp ++ doneFile f) content)
  exitApp (if status = .ok then 0 else 1)

end WagonMove
