import WagonMove.UpdaterSteps

/-!
# An update loses no program

Until the download is known to be whole the program stays as it is. From then on the download is on
the disk as a whole, beside the program or in its place, so that whatever happens one of the two can
be started. Twenty attempts are made to replace the program, and all must fail for the update to.
-/

namespace WagonMove.Updater

/-- A computer on which every download succeeds and some operations are refused. -/
def Env.online (refuses : ℕ → Op → Bool) : Env where
  args := ["C:\\Games\\InazumaMangoAW3.exe"]
  scriptDir := "C:\\Games"
  processes _ := []
  refuses := refuses
  error _ := ⟨""⟩
  writes _ command :=
    match downloadArgs command with
    | some (_, dest) => [(dest, some (List.replicate minExeBytes 0))]
    | none => []
  closes _ := false

section Online

variable (refuses : ℕ → Op → Bool)

theorem exeDir_online : (Env.online refuses).exeDir = "C:\\Games" := by
  have hpath : (Env.online refuses).exePath = "C:\\Games" ++ "\\" ++ exeName := by
    change "C:\\Games\\InazumaMangoAW3.exe" = _
    decide +kernel
  exact exeDir_of_name hpath (by decide +kernel) (by decide +kernel) (by decide +kernel)

theorem writes_online {command url dest : String} (n : ℕ)
    (h : downloadArgs command = some (url, dest)) :
    (Env.online refuses).writes n command = [(dest, some (List.replicate minExeBytes 0))] := by
  simp only [Env.online, h]

theorem shell_online : Shell (.online refuses) := by
  intro n command url dest h w hw
  rw [writes_online refuses n h, List.mem_singleton] at hw
  rw [hw]

theorem readable_online : Readable (Env.online refuses).exeDir.toList := by
  have hdir : "C:\\Games".toList.all (fun c => c ≠ '"' && !isSingleQuote c) = true := by
    decide +kernel
  rw [exeDir_online]
  intro c hc
  have hc' := List.all_eq_true.1 hdir c hc
  rw [Bool.and_eq_true, decide_eq_true_eq, Bool.not_eq_true'] at hc'
  exact ⟨hc'.1, fun hquote => absurd (hquote.symm.trans hc'.2) (by decide)⟩

theorem goodDownloads_online : GoodDownloads (.online refuses) := by
  intro n
  refine ⟨[], List.replicate minExeBytes 0, ?_, by rw [List.length_replicate]⟩
  rw [writes_online refuses n ((downloadArgs_exe_iff _).2 (readable_online refuses)),
    List.nil_append]

end Online

section Unhindered

variable {env : Env} {old : Disk} {e : Abort Err} {s : St}

/-- With nothing against it but at most nineteen failed attempts, an update is done. -/
theorem Ends.exited_zero (h : Ends env old e s) (hopen : ∀ n, env.closes n = false)
    (hfree : ¬Hindered env) (hfew : ∀ failed : Finset ℕ,
      (∀ n ∈ failed, ∃ op, env.replaces op = true ∧ env.refuses n op = true) → failed.card ≤ 19) :
    e = .exited 0 := by
  have hclosed (h : ∃ n, env.closes n = true) : False := by
    obtain ⟨n, hn⟩ := h
    exact absurd ((hopen n).symm.trans hn) (by decide)
  obtain hgiven | ⟨new, refusals, hnot⟩ | ⟨new, launches, refusals, hdone⟩ := h
  · have hne : e ≠ .closed := fun he => hclosed (hgiven.closed he)
    exact absurd (hgiven.hindered hne).1 hfree
  · have hne : e ≠ .closed := fun he => hclosed (hnot.closed he).2
    obtain ⟨failed, hsize, hfailed⟩ := hnot.ready.held.refused
    have hle := hfew failed fun n hn => (hfailed n hn).2
    have htwenty := (hnot.exited hne).2
    omega
  · exact hdone.exited fun he => hclosed (hdone.closed he)

theorem not_hindered (hgood : GoodDownloads env)
    (hfetch : ∀ n op, env.fetches op = true → env.refuses n op = false) : ¬Hindered env := by
  rintro (⟨n, op, hop, hn⟩ | hbad)
  · exact absurd ((hfetch n op hop).symm.trans hn) (by decide)
  · exact hbad hgood

end Unhindered

/-- Up to nineteen refusals of the operations that replace the program do not matter: with a whole
download, and if nobody closes the updater, the update is done. -/
theorem update_tolerates_refusals (env : Env) (old : Disk) (hshell : Shell env)
    (hdir : Readable env.exeDir.toList) (hgood : GoodDownloads env)
    (hopen : ∀ n, env.closes n = false)
    (hfetch : ∀ n op, env.fetches op = true → env.refuses n op = false) (asked : Finset ℕ)
    (hrefused : ∀ n op, env.replaces op = true → env.refuses n op = true → n ∈ asked)
    (hcard : asked.card ≤ 19) : (runUpdater env old).1 = .error (.exited 0) := by
  obtain ⟨e, s, hrun, hends⟩ := updater_ends hshell hdir old
  rw [hrun, hends.exited_zero hopen (not_hindered hgood hfetch)]
  intro failed hfailed
  have hsub : failed ⊆ asked := by
    intro n hn
    obtain ⟨op, hop, hrefuse⟩ := hfailed n hn
    exact hrefused n op hop hrefuse
  exact (Finset.card_le_card hsub).trans hcard

/-- The answers that the first nineteen attempts to move the download get. -/
def stubbornAnswers : Finset ℕ := (Finset.range 19).image fun i => 8 + 3 * i

/-- Nineteen times the download cannot be moved to the place of the program. -/
def stubborn (n : ℕ) (op : Op) : Bool :=
  op = .move "C:\\Games\\InazumaMangoAW3.exe.tmp" "C:\\Games\\InazumaMangoAW3.exe" &&
    n ∈ stubbornAnswers

theorem update_tolerates_refusals_stubborn :
    (∀ i < 19, stubborn (8 + 3 * i) (.move "C:\\Games\\InazumaMangoAW3.exe.tmp"
      "C:\\Games\\InazumaMangoAW3.exe") = true) ∧
    (runUpdater (.online stubborn) fun _ => none).1 = .error (.exited 0) := by
  have hmove (n : ℕ) (op : Op) (h : stubborn n op = true) : op = .move
      "C:\\Games\\InazumaMangoAW3.exe.tmp" "C:\\Games\\InazumaMangoAW3.exe" ∧
        n ∈ stubbornAnswers := by
    rwa [stubborn, Bool.and_eq_true, decide_eq_true_iff, decide_eq_true_iff] at h
  have hcard : stubbornAnswers.card ≤ 19 := Finset.card_image_le.trans_eq (Finset.card_range 19)
  refine ⟨fun i hi => ?_, ?_⟩
  · rw [stubborn, Bool.and_eq_true, decide_eq_true_iff, decide_eq_true_iff]
    exact ⟨rfl, Finset.mem_image.2 ⟨i, Finset.mem_range.2 hi, rfl⟩⟩
  · refine update_tolerates_refusals _ _ (shell_online _) (readable_online _)
      (goodDownloads_online _) (fun _ => rfl) (fun n op hop => ?_) stubbornAnswers
      (fun n op _ h => (hmove n op h).2) hcard
    by_contra hrefused
    obtain ⟨rfl, -⟩ := hmove n op (Bool.eq_true_of_not_eq_false hrefused)
    simp [Env.fetches] at hop

end WagonMove.Updater
