import Mathlib.Data.List.Basic
import WagonMove.Updater

/-!
# Paths and commands of the updater

Which program an update replaces, given the path it is called with, and what PowerShell makes of
the command of a download: it reads a literal between single quotes, and takes the typographic
quotes for single quotes too.
-/

namespace WagonMove.Updater

open Quoting

/-! ## The directory of a path -/

section Dir

variable {dir name : List Char}

theorem rdropWhile_name (hname : '\\' ∉ name) :
    (dir ++ '\\' :: name).rdropWhile (· ≠ '\\') = dir ++ ['\\'] := by
  induction name using List.reverseRecOn with
  | nil => rw [List.rdropWhile_concat_neg _ _ _ (by simp)]
  | append_singleton name c ih =>
      have hc : c ≠ '\\' := fun h => hname (by simp [h])
      rw [← List.cons_append, ← List.append_assoc, List.rdropWhile_concat_pos _ _ _ (by simp [hc])]
      exact ih fun h => hname (List.mem_append_left _ h)

theorem dropLastPart_of_name (hne : name ≠ []) (hname : '\\' ∉ name) :
    dropLastPart (dir ++ '\\' :: name) = dir := by
  have hlonger : dir ++ ['\\'] ≠ dir ++ '\\' :: name := by simpa using hne.symm
  rw [dropLastPart, rdropWhile_name hname, if_neg (by simp [hne.symm]), List.dropLast_concat]

theorem dirOf_of_name (hne : name ≠ []) (hname : '\\' ∉ name) :
    dirOf (dir ++ '\\' :: name) = if dir.getLast? = some '\\' then dir.dropLast else dir := by
  rw [dirOf, dropLastPart_of_name hne hname]

end Dir

/-- A path of the program, taken apart. -/
theorem toList_part (dir name : String) :
    (dir ++ "\\" ++ name).toList = dir.toList ++ '\\' :: name.toList := by
  rw [String.toList_append, String.toList_append, List.append_assoc]
  rfl

theorem exeDir_of_name {env : Env} {dir name : String} (hpath : env.exePath = dir ++ "\\" ++ name)
    (hne : name ≠ "") (hname : '\\' ∉ name.toList) (hdir : dir.toList.getLast? ≠ some '\\') :
    env.exeDir = dir := by
  rw [Env.exeDir, hpath, toList_part, dirOf_of_name (by simpa using hne) hname, if_neg hdir,
    String.ofList_toList]

/-- Windows takes two names for one if they differ in case only; `fold` forgets the case. -/
def SameName (fold : Char → Char) (name name' : String) : Prop :=
  name.toList.map fold = name'.toList.map fold

section SameName

variable {fold : Char → Char} {dir name name' : String}

theorem sameName_inDir_iff :
    SameName fold (dir ++ "\\" ++ name) (dir ++ "\\" ++ name') ↔ SameName fold name name' := by
  simp only [SameName, toList_part, List.map_append, List.map_cons, List.append_cancel_left_eq,
    List.cons.injEq, true_and]

theorem SameName.mem_backslash (hfold : ∀ c, fold c = fold '\\' → c = '\\')
    (h : SameName fold name name') (hmem : '\\' ∈ name.toList) : '\\' ∈ name'.toList := by
  have hmem' : fold '\\' ∈ name'.toList.map fold := h ▸ List.mem_map_of_mem hmem
  obtain ⟨c, hc, heq⟩ := List.mem_map.1 hmem'
  exact hfold c heq ▸ hc

/-- A path that is the same as one in a directory lies in the same directory. -/
theorem SameName.split {path : String} (hfold : ∀ c, fold c = fold '\\' → c = '\\')
    (h : SameName fold (dir ++ "\\" ++ name) path) : ∃ dir' name', path = dir' ++ "\\" ++ name' ∧
      SameName fold dir' dir ∧ SameName fold name' name := by
  rw [SameName, toList_part, List.map_append, List.map_cons, eq_comm] at h
  obtain ⟨l, rest, hpath, hl, hrest⟩ := List.map_eq_append_iff.1 h
  obtain ⟨c, l', rfl, hc, hl'⟩ := List.map_eq_cons_iff.1 hrest
  obtain rfl := hfold c hc
  refine ⟨String.ofList l, String.ofList l', String.toList_injective ?_, ?_, ?_⟩
  · rw [hpath, toList_part, String.toList_ofList, String.toList_ofList]
  · rw [SameName, String.toList_ofList, hl]
  · rw [SameName, String.toList_ofList, hl']

end SameName

/-- The update works in the directory of the program it is called with, and it puts the new program
in the place of that one exactly if it is called with a path to the name of the program, up to case,
in a directory written without a backslash at its end. -/
theorem update_replaces_caller_iff (fold : Char → Char) (hfold : ∀ c, fold c = fold '\\' → c = '\\')
    (env : Env) :
    (∀ dir name, env.exePath = dir ++ "\\" ++ name → name ≠ "" → '\\' ∉ name.toList →
      dir.toList.getLast? ≠ some '\\' →
        env.exeDir = dir ∧ (SameName fold env.exeDest env.exePath ↔ SameName fold name exeName)) ∧
    (SameName fold env.exeDest env.exePath ↔ ∃ dir name, env.exePath = dir ++ "\\" ++ name ∧
      SameName fold name exeName ∧ dir.toList.getLast? ≠ some '\\') := by
  have hexe : exeName ≠ "" ∧ '\\' ∉ exeName.toList := by decide +kernel
  have hnamed {name : String} (h : SameName fold name exeName) :
      name ≠ "" ∧ '\\' ∉ name.toList := by
    refine ⟨?_, fun hmem => hexe.2 (h.mem_backslash hfold hmem)⟩
    rintro rfl
    exact absurd (congrArg List.length h) (by simp [exeName])
  have hdest (dir name : String) (hpath : env.exePath = dir ++ "\\" ++ name) (hne : name ≠ "")
      (hname : '\\' ∉ name.toList) (hdir : dir.toList.getLast? ≠ some '\\') :
      env.exeDir = dir ∧ (SameName fold env.exeDest env.exePath ↔ SameName fold name exeName) := by
    have hexeDir := exeDir_of_name hpath hne hname hdir
    refine ⟨hexeDir, ?_⟩
    rw [Env.exeDest, hexeDir, hpath, sameName_inDir_iff]
    exact eq_comm
  refine ⟨hdest, fun hsame => ?_, ?_⟩
  · obtain ⟨dir, name, hpath, hdir, hname⟩ := hsame.split hfold
    refine ⟨dir, name, hpath, hname, fun hlast => ?_⟩
    have hshort : env.exeDir.toList = dir.toList.dropLast := by
      rw [Env.exeDir, hpath, toList_part, dirOf_of_name (by simpa using (hnamed hname).1)
        (hnamed hname).2, if_pos hlast, String.toList_ofList]
    have hlength := congrArg List.length hdir
    rw [List.length_map, List.length_map, hshort, List.length_dropLast] at hlength
    have hpos : dir.toList ≠ [] := by
      intro hnil
      simp [hnil] at hlast
    have := List.length_pos_of_ne_nil hpos
    omega
  · rintro ⟨dir, name, hpath, hname, hdir⟩
    exact (hdest dir name hpath (hnamed hname).1 (hnamed hname).2 hdir).2.2 hname

theorem toLower_eq_backslash (c : Char) (h : c.toLower = '\\') : c = '\\' := by
  unfold Char.toLower at h
  split at h
  · rename_i hupper
    have hval : c.val + ('a'.val - 'A'.val) = '\\'.val := congrArg Char.val h
    have hc : c.val = '\\'.val - ('a'.val - 'A'.val) := by
      rw [← hval, UInt32.add_sub_cancel]
    rw [hc] at hupper
    exact absurd hupper (by decide)
  · exact h

/-- A call under the program's name in other letters. -/
def Env.otherCase : Env where
  args := ["C:\\Games\\inazumamangoaw3.EXE"]
  scriptDir := "C:\\Games"
  processes _ := []
  refuses _ _ := false
  error _ := ⟨""⟩
  writes _ _ := []
  closes _ := false

theorem other_case_is_replaced : Env.otherCase.exeDest = "C:\\Games\\InazumaMangoAW3.exe" ∧
    SameName Char.toLower Env.otherCase.exeDest Env.otherCase.exePath := by
  have hname : SameName Char.toLower "inazumamangoaw3.EXE" exeName := by
    unfold SameName
    decide +kernel
  refine ⟨by decide +kernel, (update_replaces_caller_iff _ toLower_eq_backslash _).2.2 ?_⟩
  exact ⟨"C:\\Games", "inazumamangoaw3.EXE", by decide +kernel, hname, by decide +kernel⟩

/-! ## What the shell reads -/

/-- The characters that PowerShell takes for a single quote. -/
def isSingleQuote (c : Char) : Bool := [39, 0x2018, 0x2019, 0x201A, 0x201B].contains c.toNat

/-- The arguments of a call of `DownloadFile` and nothing after it. -/
def readCall (script : List Char) : Option (List Char × List Char) := do
  let rest ← callText.toList.isPrefixOf? script
  let (url, rest) ← readLiteral isSingleQuote rest
  let rest ← ", '".toList.isPrefixOf? rest
  let (dest, rest) ← readLiteral isSingleQuote rest
  if rest = [')'] then some (url, dest) else none

/-- What PowerShell downloads, and to where, if a command is one download: the argument of
`-Command` ends at the next double quote. -/
def downloadArgs (command : String) : Option (String × String) := do
  let argument ← shellText.toList.isPrefixOf? command.toList
  if argument.dropWhile (· ≠ '"') = ['"'] then
    (readCall (argument.takeWhile (· ≠ '"'))).map fun args =>
      (String.ofList args.1, String.ofList args.2)
  else none

/-- The characters of a call, as the updater writes them. -/
def callChars (url dest : List Char) : List Char :=
  callText.toList ++ (escape singleQuote url ++ singleQuote :: (", '".toList ++
    (escape singleQuote dest ++ singleQuote :: [')'])))

/-- Free of double quotes, and of all single quotes but the one that is doubled. -/
def Readable (text : List Char) : Prop :=
  ∀ c ∈ text, c ≠ '"' ∧ (isSingleQuote c = true → c = singleQuote)

section Shell

variable {url dest : List Char}

theorem readCall_callChars (hurl : ∀ c ∈ url, isSingleQuote c = true → c = singleQuote)
    (hdest : ∀ c ∈ dest, isSingleQuote c = true → c = singleQuote) :
    readCall (callChars url dest) = some (url, dest) := by
  have hquote : isSingleQuote singleQuote = true := by decide
  have hprefix (l rest : List Char) : l.isPrefixOf? (l ++ rest) = some rest :=
    List.isPrefixOf?_eq_some_iff_append_eq.2 rfl
  have hurl' : readLiteral isSingleQuote (escape singleQuote url ++ singleQuote ::
      (", '".toList ++ (escape singleQuote dest ++ singleQuote :: [')']))) = some (url, _) :=
    readLiteral_escape hquote hurl (by simp [isSingleQuote])
  have hdest' : readLiteral isSingleQuote (escape singleQuote dest ++ singleQuote :: [')']) =
      some (dest, _) := readLiteral_escape hquote hdest (by simp [isSingleQuote])
  simp only [readCall, callChars, hprefix, hurl', hdest', Option.bind_eq_bind, Option.bind_some,
    if_true]

/-- A call that is read back has no other quotes: each would take up a place that nothing fills. -/
theorem only_quotes_of_readCall (h : readCall (callChars url dest) = some (url, dest)) :
    (∀ c ∈ url, isSingleQuote c = true → c = singleQuote) ∧
      ∀ c ∈ dest, isSingleQuote c = true → c = singleQuote := by
  have hquote : isSingleQuote singleQuote = true := by decide
  have hprefix (l rest : List Char) : l.isPrefixOf? (l ++ rest) = some rest :=
    List.isPrefixOf?_eq_some_iff_append_eq.2 rfl
  simp only [readCall, callChars, hprefix, Option.bind_eq_bind, Option.bind_some,
    Option.bind_eq_some_iff] at h
  obtain ⟨⟨url', rest⟩, hurl, rest', hrest, ⟨dest', last⟩, hdest, hlast⟩ := h
  by_cases hend : last = [')']
  · subst hend
    rw [if_pos rfl] at hlast
    obtain ⟨rfl, rfl⟩ : url = url' ∧ dest = dest' := by simpa [eq_comm] using hlast
    have hfirst := length_of_readLiteral hurl
    have hsecond := length_of_readLiteral hdest
    have hmiddle := congrArg List.length (List.isPrefixOf?_eq_some_iff_append_eq.1 hrest)
    simp only [List.length_append, List.length_cons, List.length_nil,
      length_escape] at hfirst hsecond hmiddle
    have hle := count_le_countP hquote url
    have hle' := count_le_countP hquote dest
    exact ⟨only_quote_of_countP_le hquote (by omega), only_quote_of_countP_le hquote (by omega)⟩
  · rw [if_neg hend] at hlast
    cases hlast

theorem downloadCommand_toList (url dest : String) : (downloadCommand url dest).toList =
    shellText.toList ++ (callChars url.toList dest.toList ++ ['"']) := by
  have hfirst : ("', '" : String).toList = singleQuote :: ", '".toList := by decide
  have hlast : ("')" : String).toList = singleQuote :: [')'] := by decide
  have hend : ("\"" : String).toList = ['"'] := by decide
  simp only [downloadCommand, callChars, quoted, String.toList_append, String.toList_ofList, hfirst,
    hlast, hend, List.append_assoc, List.cons_append]

theorem mem_callChars {c : Char} : c ∈ callChars url dest ↔
    c ∈ callText.toList ∨ c ∈ url ∨ c = singleQuote ∨ c ∈ ", '".toList ∨ c ∈ dest ∨ c = ')' := by
  simp only [callChars, List.mem_append, List.mem_cons, mem_escape, List.mem_nil_iff, or_false]
  tauto

theorem ne_doubleQuote_of_readable (h : Readable (url ++ dest)) {c : Char}
    (hc : c ∈ callChars url dest) : c ≠ '"' := by
  have hcall : callText.toList.all (· ≠ '"') = true := by decide +kernel
  obtain hc | hc | rfl | hc | hc | rfl := mem_callChars.1 hc
  · simpa using List.all_eq_true.1 hcall c hc
  · exact (h c (List.mem_append_left _ hc)).1
  · decide
  · intro heq
    subst heq
    exact absurd hc (by decide)
  · exact (h c (List.mem_append_right _ hc)).1
  · decide

/-- PowerShell takes the command of a download for a download of that URL to that file exactly if
neither has a double quote or a typographic single quote. -/
theorem downloadArgs_iff (url dest : String) :
    downloadArgs (downloadCommand url dest) = some (url, dest) ↔
      Readable (url.toList ++ dest.toList) := by
  have hprefix (l rest : List Char) : l.isPrefixOf? (l ++ rest) = some rest :=
    List.isPrefixOf?_eq_some_iff_append_eq.2 rfl
  let script := callChars url.toList dest.toList
  have htake (h : ∀ c ∈ script, c ≠ '"') : (script ++ ['"']).takeWhile (· ≠ '"') = script ∧
      (script ++ ['"']).dropWhile (· ≠ '"') = ['"'] := by
    have hne : ∀ c ∈ script, decide (c ≠ '"') = true := fun c hc => decide_eq_true (h c hc)
    rw [List.takeWhile_append_of_pos hne, List.dropWhile_append_of_pos hne]
    simp
  have hread : downloadArgs (downloadCommand url dest) =
      if (script ++ ['"']).dropWhile (· ≠ '"') = ['"'] then
        (readCall ((script ++ ['"']).takeWhile (· ≠ '"'))).map fun args =>
          (String.ofList args.1, String.ofList args.2)
      else none := by
    simp only [downloadArgs, downloadCommand_toList, hprefix, Option.bind_eq_bind, Option.bind_some]
    rfl
  rw [hread]
  constructor
  · intro h
    by_cases hdrop : (script ++ ['"']).dropWhile (· ≠ '"') = ['"']
    · have hsplit := List.takeWhile_append_dropWhile (p := (· ≠ '"')) (l := script ++ ['"'])
      rw [hdrop, List.append_cancel_right_eq] at hsplit
      have hne : ∀ c ∈ script, c ≠ '"' := by
        rw [← hsplit]
        intro c hc
        simpa using List.mem_takeWhile_imp hc
      rw [if_pos hdrop, (htake hne).1] at h
      obtain ⟨⟨url', dest'⟩, hcall, hargs⟩ := Option.map_eq_some_iff.1 h
      obtain ⟨rfl, rfl⟩ := Prod.mk.inj hargs
      have honly := only_quotes_of_readCall (hcall.trans (by simp))
      intro c hc
      refine ⟨hne c (mem_callChars.2 ?_), ?_⟩
      · obtain hc | hc := List.mem_append.1 hc
        · exact .inr (.inl hc)
        · exact .inr (.inr (.inr (.inr (.inl hc))))
      · obtain hc | hc := List.mem_append.1 hc
        · exact honly.1 c hc
        · exact honly.2 c hc
    · rw [if_neg hdrop] at h
      cases h
  · intro h
    obtain ⟨htake, hdrop⟩ := htake fun c => ne_doubleQuote_of_readable h
    rw [if_pos hdrop, htake, readCall_callChars (fun c hc => (h c (List.mem_append_left _ hc)).2)
      fun c hc => (h c (List.mem_append_right _ hc)).2]
    simp

end Shell

/-! ## The files of an update -/

theorem inDir_ne (env : Env) {name name' : String} (h : name ≠ name') :
    env.exeDir ++ "\\" ++ name ≠ env.exeDir ++ "\\" ++ name' := by
  rwa [Ne, String.append_right_inj]

theorem exeTmp_eq (env : Env) : env.exeTmp = env.exeDir ++ "\\" ++ (exeName ++ ".tmp") :=
  String.append_assoc

theorem ahkTmp_eq (env : Env) : env.ahkTmp = env.exeDir ++ "\\" ++ (ahkName ++ ".tmp") :=
  String.append_assoc

theorem exeTmp_ne_exeDest (env : Env) : env.exeTmp ≠ env.exeDest := by
  rw [exeTmp_eq]
  exact inDir_ne env (by decide +kernel)

theorem ahk_ne_exe {env : Env} {path : String} (h : path = env.ahkDest ∨ path = env.ahkTmp) :
    path ≠ env.exeDest ∧ path ≠ env.exeTmp := by
  rw [exeTmp_eq, Env.exeDest]
  obtain rfl | rfl := h
  · exact ⟨inDir_ne env (by decide +kernel), inDir_ne env (by decide +kernel)⟩
  · rw [ahkTmp_eq]
    exact ⟨inDir_ne env (by decide +kernel), inDir_ne env (by decide +kernel)⟩

/-- Only the directory of a file in it can make a command unreadable. -/
theorem readable_inDir_iff {url name : String} (env : Env)
    (hconst : (url.toList ++ "\\".toList ++ name.toList).all
      (fun c => c ≠ '"' && !isSingleQuote c) = true) :
    Readable (url.toList ++ (env.exeDir ++ "\\" ++ name).toList) ↔ Readable env.exeDir.toList := by
  have hplain : ∀ c ∈ url.toList ++ "\\".toList ++ name.toList,
      c ≠ '"' ∧ (isSingleQuote c = true → c = singleQuote) := by
    intro c hc
    have hc' := List.all_eq_true.1 hconst c hc
    rw [Bool.and_eq_true, decide_eq_true_eq, Bool.not_eq_true'] at hc'
    exact ⟨hc'.1, fun hquote => absurd (hquote.symm.trans hc'.2) (by decide)⟩
  simp only [List.mem_append] at hplain
  constructor
  · intro h c hc
    exact h c (by simp [hc])
  · intro h c hc
    simp only [String.toList_append, List.mem_append] at hc
    obtain hc | (hc | hc) | hc := hc
    · exact hplain c (.inl (.inl hc))
    · exact h c hc
    · exact hplain c (.inl (.inr hc))
    · exact hplain c (.inr hc)

theorem downloadArgs_exe_iff (env : Env) :
    downloadArgs (downloadCommand exeUrl env.exeTmp) = some (exeUrl, env.exeTmp) ↔
      Readable env.exeDir.toList := by
  rw [downloadArgs_iff, exeTmp_eq]
  exact readable_inDir_iff env (by decide +kernel)

theorem downloadArgs_ahk_iff (env : Env) :
    downloadArgs (downloadCommand ahkUrl env.ahkTmp) = some (ahkUrl, env.ahkTmp) ↔
      Readable env.exeDir.toList := by
  rw [downloadArgs_iff, ahkTmp_eq]
  exact readable_inDir_iff env (by decide +kernel)

/-- Both downloads are read as what they are meant for exactly if the directory has no double quote
and no typographic single quote; the plain single quote, which is doubled, does no harm. -/
theorem downloads_read_as_meant_iff (env : Env) :
    (downloadArgs (downloadCommand exeUrl env.exeTmp) = some (exeUrl, env.exeTmp) ∧
      downloadArgs (downloadCommand ahkUrl env.ahkTmp) = some (ahkUrl, env.ahkTmp)) ↔
    ∀ c ∈ env.exeDir.toList, c ≠ '"' ∧ (isSingleQuote c = true → c = singleQuote) := by
  rw [downloadArgs_exe_iff, downloadArgs_ahk_iff, and_self]
  exact Iff.rfl

end WagonMove.Updater
