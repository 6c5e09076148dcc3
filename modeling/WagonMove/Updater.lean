import Mathlib.Data.List.DropRight
import Mathlib.Logic.Function.Basic
import WagonMove.Quoting
import WagonMove.World

/-!
# The updater

`updater.ahk` waits for the program to end, downloads a new one beside it, puts it in the place of
the old one and starts it. The state keeps every disk there has been, so that what is on the disk
can be told for each moment of a run, the middle of a download included.
-/

namespace WagonMove.Updater

open Prog

abbrev File := List UInt8

abbrev Disk := String → Option File

inductive Op where
  | delete (path : String)
  | move (source dest : String)
  | size (path : String)
  | command (text : String)
  | launch (path : String)
  deriving DecidableEq

/-- What Windows and the shell answer; each question takes the next answer. -/
structure Env where
  args : List String
  scriptDir : String
  /-- The names of the processes that run. -/
  processes : ℕ → List String
  refuses : ℕ → Op → Bool
  error : ℕ → Err
  /-- What a shell command does to the disk, write by write. -/
  writes : ℕ → String → List (String × Option File)
  /-- Whether the updater is closed while it waits. -/
  closes : ℕ → Bool

inductive Event where
  | failed (op : Op)
  | slept (ms : ℕ)
  | msgBox (text title : String) (options : ℕ)
  /-- A program has been started, with the content of its file. -/
  | ran (path : String) (program : File)
  deriving DecidableEq

/-- The disk, the disks before it and the events, newest first. -/
structure St where
  disk : Disk
  past : List Disk := []
  asked : ℕ := 0
  trace : List Event := []

abbrev Upd (α : Type) := Prog Env St Err α

def St.moments (s : St) : List Disk := s.disk :: s.past

def St.record (e : Event) (s : St) : St := { s with trace := e :: s.trace }

def St.change (d : Disk) (s : St) : St := { s with disk := d, past := s.disk :: s.past }

/-! ## Built-ins -/

def log (e : Event) : Upd Unit := update (St.record e)

def ask {α : Type} (q : Env → ℕ → α) : Upd α :=
  ⟨fun env s => (.ok (q env s.asked), { s with asked := s.asked + 1 })⟩

def constant {α : Type} (q : Env → α) : Upd α := ⟨fun env s => (.ok (q env), s)⟩

/-- An operation throws if the disk does not allow it or the system refuses it. -/
def attempt (op : Op) (possible : Disk → Bool) : Upd Unit := do
  let refused ← ask fun env n => env.refuses n op
  let e ← ask Env.error
  if refused || !possible (← gets St.disk) then
    log (.failed op)
    raise e
  else pure ()

def fileExist (path : String) : Upd Bool := gets fun s => (s.disk path).isSome

def fileDelete (path : String) : Upd Unit := do
  attempt (.delete path) fun d => (d path).isSome
  update fun s => s.change (Function.update s.disk path none)

/-- `FileMove` without its overwrite flag. -/
def fileMove (source dest : String) : Upd Unit := do
  attempt (.move source dest) fun d => (d source).isSome && (d dest).isNone
  update fun s =>
    s.change (Function.update (Function.update s.disk dest (s.disk source)) source none)

def fileGetSize (path : String) : Upd ℕ := do
  attempt (.size path) fun d => (d path).isSome
  gets fun s => ((s.disk path).getD []).length

/-- Waiting lets an exit request through. -/
def wait : Upd Unit := do
  if ← ask Env.closes then abort .closed
  else pure ()

def sleep (ms : ℕ) : Upd Unit := do
  log (.slept ms)
  wait

def msgBox (text title : String) (options : ℕ) : Upd Unit := do
  log (.msgBox text title options)
  wait

def write : List (String × Option File) → Upd Unit
  | [] => pure ()
  | w :: ws => do
    update fun s => s.change (Function.update s.disk w.1 w.2)
    write ws

/-- `RunWait(command, , "Hide")`. -/
def runWait (command : String) : Upd Unit := do
  attempt (.command command) fun _ => true
  let ws ← ask fun env n => env.writes n command
  write ws
  wait

/-- `Run(path)`. -/
def run (path : String) : Upd Unit := do
  attempt (.launch path) fun d => (d path).isSome
  let s ← gets id
  log (.ran path ((s.disk path).getD []))

/-- A name without extension is not completed by `ProcessExist`. -/
def processExist (name : String) : Upd Bool :=
  ask fun env n => (env.processes n).any fun p => p.toLower = name.toLower

/-! ## Paths -/

def baseUrl : String :=
  "https://github.com/" ++ "pedropagode" ++ "/" ++ "inazuma-mango-aw3" ++
    "/releases/latest/download/"

def exeName : String := "InazumaMangoAW3.exe"

def ahkName : String := "AutoRamTrim.ahk"

def exeUrl : String := baseUrl ++ exeName

def ahkUrl : String := baseUrl ++ ahkName

/-- `RegExReplace(path, "\\[^\\]+$", "")`: the last part of a path goes, with its backslash. -/
def dropLastPart (path : List Char) : List Char :=
  let upTo := path.rdropWhile (· ≠ '\\')
  if upTo = [] ∨ upTo = path then path else upTo.dropLast

/-- `exeDir`, without its backslash at the end if there was one. -/
def dirOf (path : List Char) : List Char :=
  let dir := dropLastPart path
  if dir.getLast? = some '\\' then dir.dropLast else dir

def Env.exePath (env : Env) : String :=
  match env.args with
  | path :: _ => path
  | [] => env.scriptDir ++ "\\" ++ exeName

def Env.exeDir (env : Env) : String := String.ofList (dirOf env.exePath.toList)

def Env.exeDest (env : Env) : String := env.exeDir ++ "\\" ++ exeName

def Env.ahkDest (env : Env) : String := env.exeDir ++ "\\" ++ ahkName

def Env.exeTmp (env : Env) : String := env.exeDest ++ ".tmp"

def Env.ahkTmp (env : Env) : String := env.ahkDest ++ ".tmp"

/-- `RegExReplace(name, "\.exe$", "")`. -/
def stripExe (name : String) : String :=
  let l := name.toList
  if ".exe".toList.isSuffixOf l then String.ofList (l.take (l.length - 4)) else name

def exeBase : String := stripExe exeName

/-! ## Downloads -/

def singleQuote : Char := Char.ofNat 39

def quoted (text : String) : String :=
  String.ofList (Quoting.escape singleQuote text.toList)

def callText : String := "(New-Object Net.WebClient).DownloadFile('"

def shellText : String := "PowerShell -NoProfile -ExecutionPolicy Bypass -Command \""

def downloadCommand (url dest : String) : String :=
  shellText ++ callText ++ quoted url ++ "', '" ++ quoted dest ++ "')" ++ "\""

def downloadViaPowerShell (url dest : String) : Upd Unit := runWait (downloadCommand url dest)

def updaterTitle : String := "Inazuma Updater"

def minExeBytes : ℕ := 1048576

def tryFileDelete (path : String) : Upd Unit := rescue (fileDelete path) fun _ => pure ()

def deleteIfExists (path : String) : Upd Unit := do
  if ← fileExist path then fileDelete path
  else pure ()

/-! ## The steps of an update -/

/-- Wait up to 30 s for the program to end. -/
def waitForExit : Upd Unit :=
  loop (fun _ => do
      if !(← processExist exeBase) then pure (.leave ())
      else
        sleep 500
        pure (.again ()))
    (fun _ => pure ()) 60 ()

def fail {α : Type} (text : String) : Upd α := do
  msgBox text updaterTitle 16
  abort (.exited 1)

def downloadExe (exeTmp : String) : Upd Unit :=
  rescue
    (do
      deleteIfExists exeTmp
      downloadViaPowerShell exeUrl exeTmp)
    fun e => fail ("Falha ao baixar " ++ exeName ++ "\n" ++ e.message)

/-- Refuse a download that cannot be the program. -/
def validate (exeTmp : String) : Upd Unit := do
  if !(← fileExist exeTmp) then
    fail ("Download falhou: arquivo nao foi criado.\nURL: " ++ exeUrl)
  else
    let tmpSize ← fileGetSize exeTmp
    if tmpSize < minExeBytes then
      tryFileDelete exeTmp
      fail ("Download corrompido (" ++ toString tmpSize ++ " bytes).\n" ++
        "Esperado pelo menos 1 MB.\n\n" ++ "Verifique sua conexao e tente novamente.")
    else pure ()

structure Replaced where
  ok : Bool
  err : String
  deriving DecidableEq

/-- One attempt to put the download in the place of the program. -/
def replaceOnce (exeTmp exeDest : String) : Upd (Turn Replaced String) :=
  rescue
    (do
      deleteIfExists exeDest
      fileMove exeTmp exeDest
      pure (.leave ⟨true, ""⟩))
    fun e => do
      sleep 500
      pure (.again e.message)

def replaceExe (exeTmp exeDest : String) : Upd Replaced :=
  loop (fun _ => replaceOnce exeTmp exeDest) (fun err => pure ⟨false, err⟩) 20 ""

def updateExe (exeTmp exeDest : String) : Upd Unit := do
  downloadExe exeTmp
  validate exeTmp
  let r ← replaceExe exeTmp exeDest
  if !r.ok then fail ("Falha ao substituir " ++ exeName ++ "\n" ++ r.err)
  else pure ()

/-- The second download; its failure does not stop the update. -/
def updateAhk (ahkTmp ahkDest : String) : Upd Unit :=
  rescue
    (do
      deleteIfExists ahkTmp
      downloadViaPowerShell ahkUrl ahkTmp
      let whole ← (do
        if ← fileExist ahkTmp then
          let size ← fileGetSize ahkTmp
          pure (decide (0 < size))
        else pure false)
      if whole then
        deleteIfExists ahkDest
        fileMove ahkTmp ahkDest
      else tryFileDelete ahkTmp)
    fun _ => pure ()

def relaunch (exeDest : String) : Upd Unit :=
  rescue (run exeDest) fun e =>
    msgBox ("Update concluido mas falha ao relancar.\n" ++ e.message ++
      "\nAbra manualmente: " ++ exeDest) updaterTitle 48

def updater : Upd Unit := do
  waitForExit
  sleep 1500
  updateExe (← constant Env.exeTmp) (← constant Env.exeDest)
  updateAhk (← constant Env.ahkTmp) (← constant Env.ahkDest)
  relaunch (← constant Env.exeDest)
  abort (.exited 0)

/-- A whole run of the updater, begun with this disk. -/
def runUpdater (env : Env) (disk : Disk) : Except (Abort Err) Unit × St :=
  updater.run env { disk := disk }

end WagonMove.Updater
