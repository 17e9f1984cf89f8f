import Mathlib.Algebra.GroupWithZero.Nat
import Mathlib.Data.List.Nodup
import Mathlib.Data.List.Induction
import SetupCatalog.Report.Markdown
import SetupCatalog.SkipList

/-!
# Nothing is lost between a catalog and its report

A report is made from packages in four passes: a skip list says how each package stands, the
packages are counted by status and by installer, and they are put into groups by script.
`outcomes_accounted` says that every pass has each package exactly once.

Counting and grouping are two uses of one fact: things of which each has one of a number of keys are
taken apart by their keys with nothing left over (`flatMap_filter_perm`). The groups are built up
package by package. One more package goes to the end of the group of its script
(`addToGroup_of_mem`) or starts a group (`addToGroup_of_not_mem`), so after any number of packages
the scripts stand in the order in which they first occur and every group has the packages of its
script in their order (`byScript_eq`).
-/

namespace SetupCatalog

/-! ## Taking a list apart by keys -/

section Keys

variable {α β : Type} [DecidableEq β] (key : α → β)

/-- Things that all have one of the keys are taken apart by the keys with nothing left over. -/
theorem flatMap_filter_perm {keys : List β} (hnodup : keys.Nodup) {xs : List α}
    (hkeys : ∀ x ∈ xs, key x ∈ keys) :
    (keys.flatMap fun k => xs.filter fun x => key x = k).Perm xs := by
  induction keys generalizing xs with
  | nil =>
    have hnone : xs = [] := by
      apply List.eq_nil_iff_forall_not_mem.mpr
      intro x hx
      exact List.not_mem_nil (hkeys x hx)
    rw [hnone]
    exact List.Perm.nil
  | cons k keys ih =>
    obtain ⟨hk, hrest⟩ := List.nodup_cons.mp hnodup
    -- the other keys see nothing of what has the first one
    have hothers : (keys.flatMap fun l => xs.filter fun x => key x = l) =
        keys.flatMap fun l =>
          (xs.filter fun x => !decide (key x = k)).filter fun x => key x = l := by
      apply List.flatMap_congr
      intro l hl
      rw [List.filter_filter]
      apply List.filter_congr
      intro x _
      by_cases hx : key x = l
      · have hne : key x ≠ k := fun hxk => hk (hxk ▸ hx ▸ hl)
        simp [hx, hx ▸ hne]
      · simp [hx]
    have hcovered : ∀ x ∈ xs.filter (fun x => !decide (key x = k)), key x ∈ keys := by
      intro x hx
      obtain ⟨hmem, hne⟩ := List.mem_filter.mp hx
      exact (List.mem_cons.mp (hkeys x hmem)).resolve_left (by simpa using hne)
    rw [List.flatMap_cons, hothers]
    exact ((ih hrest hcovered).append_left _).trans (List.filter_append_perm _ xs)

/-- Counted key by key, things are counted once each. -/
theorem sum_countP_eq_length {keys : List β} (hnodup : keys.Nodup) {xs : List α}
    (hkeys : ∀ x ∈ xs, key x ∈ keys) :
    (keys.map fun k => xs.countP fun x => key x = k).sum = xs.length := by
  have hlength := (flatMap_filter_perm key hnodup hkeys).length_eq
  rw [List.length_flatMap] at hlength
  simpa only [List.countP_eq_length_filter] using hlength

end Keys

/-- Each status is listed once. -/
theorem Status.nodup_all : Status.all.Nodup := by
  decide

/-- Each installer is listed once. -/
theorem Installer.nodup_all : Installer.all.Nodup := by
  decide

namespace Summary

/-- The counts by status add up to the number of packages. -/
theorem sum_byStatus (outcomes : List Outcome) :
    ((ofOutcomes outcomes).byStatus.map Prod.snd).sum = outcomes.length := by
  rw [ofOutcomes, List.map_map]
  exact sum_countP_eq_length Outcome.status Status.nodup_all fun o _ => Status.mem_all o.status

/-- The counts by installer add up to the number of packages. -/
theorem sum_byInstaller (outcomes : List Outcome) :
    ((ofOutcomes outcomes).byInstaller.map Prod.snd).sum = outcomes.length := by
  rw [ofOutcomes, List.map_map]
  exact sum_countP_eq_length (fun o : Outcome => o.package.installer) Installer.nodup_all
    fun o _ => Installer.mem_all o.package.installer

end Summary

namespace SkipList

/-- The packages come out as they went in. -/
theorem package_outcome (list : SkipList) (p : Package) : (list.outcome p).package = p := by
  unfold outcome
  split <;> rfl

/-- The status of a package tells whether it is on the skip list. -/
theorem status_outcome (list : SkipList) (p : Package) :
    (list.outcome p).status = if (list.reason? p).isSome then .untested else .pending := by
  unfold outcome
  split
  · next hreason => rw [hreason]; rfl
  · next hreason => rw [hreason]; rfl

/-- The outcomes are those of the packages, in their order. -/
theorem map_package_outcomes (list : SkipList) (packages : List Package) :
    (list.outcomes packages).map Outcome.package = packages := by
  rw [outcomes, List.map_map]
  exact List.map_id'' (package_outcome list) packages

/-- Before anything is installed a package is pending or untested, and untested exactly if there is
a reason to skip it, whatever the reason says. -/
theorem countP_status_outcomes (list : SkipList) (packages : List Package) (status : Status) :
    (list.outcomes packages).countP (fun o => o.status = status) =
      match status with
      | .pending => packages.countP fun p => (list.reason? p).isNone
      | .untested => packages.countP fun p => (list.reason? p).isSome
      | .passed | .failed => 0 := by
  rw [outcomes, List.countP_map]
  have hstatus : ((fun o : Outcome => decide (o.status = status)) ∘ list.outcome) =
      fun p => decide ((if (list.reason? p).isSome then .untested else .pending) = status) :=
    funext fun p => congrArg (fun s => decide (s = status)) (status_outcome list p)
  rw [hstatus]
  -- the skip list gives two statuses only
  cases status with
  | pending | untested =>
    apply List.countP_congr
    intro p _
    cases list.reason? p <;> simp
  | passed | failed =>
    apply List.countP_eq_zero.mpr
    intro p _
    cases list.reason? p <;> simp

end SkipList

/-! ## First occurrences -/

section FirstOccurrences

variable {α : Type} [BEq α] [LawfulBEq α]

/-- A further value comes last if it is new, and is dropped otherwise. -/
theorem eraseDups_concat (xs : List α) (x : α) :
    (xs ++ [x]).eraseDups = if x ∈ xs then xs.eraseDups else xs.eraseDups ++ [x] := by
  rw [List.eraseDups_append]
  by_cases hx : x ∈ xs <;> simp [List.removeAll, List.eraseDups_cons, hx]

/-- No value is listed twice. -/
theorem nodup_eraseDups (xs : List α) : xs.eraseDups.Nodup := by
  induction xs using List.reverseRecOn with
  | nil => exact List.nodup_nil
  | append_singleton xs x ih =>
    rw [eraseDups_concat]
    split
    · exact ih
    · next hx =>
      apply List.Nodup.append ih (List.nodup_singleton x)
      intro y hy hyx
      rw [List.mem_singleton.mp hyx, List.mem_eraseDups] at hy
      exact hx hy

end FirstOccurrences

/-! ## Groups -/

namespace Report

/-- The packages of a script. -/
def ofScript (outcomes : List Outcome) (script : Text) : List Outcome :=
  outcomes.filter fun o => o.package.script = script

/-- The scripts of packages in the order in which they first occur. -/
def scriptsOf (outcomes : List Outcome) : List Text :=
  (outcomes.map fun o => o.package.script).eraseDups

/-- The packages of some scripts, script by script. -/
def groupsOf (outcomes : List Outcome) (scripts : List Text) : List (Text × List Outcome) :=
  scripts.map fun script => (script, ofScript outcomes script)

theorem groupsOf_cons (outcomes : List Outcome) (script : Text) (scripts : List Text) :
    groupsOf outcomes (script :: scripts) =
      (script, ofScript outcomes script) :: groupsOf outcomes scripts := rfl

/-- The groups of some scripts come before those of further ones. -/
theorem groupsOf_append (outcomes : List Outcome) (scripts more : List Text) :
    groupsOf outcomes (scripts ++ more) = groupsOf outcomes scripts ++ groupsOf outcomes more :=
  List.map_append

/-- The script of every outcome is among the scripts. -/
theorem mem_scriptsOf {outcomes : List Outcome} {o : Outcome} (h : o ∈ outcomes) :
    o.package.script ∈ scriptsOf outcomes := by
  rw [scriptsOf, List.mem_eraseDups]
  exact List.mem_map_of_mem h

/-- One more outcome adds its script, unless the script is there. -/
theorem scriptsOf_concat (outcomes : List Outcome) (o : Outcome) :
    scriptsOf (outcomes ++ [o]) =
      if o.package.script ∈ scriptsOf outcomes then scriptsOf outcomes
      else scriptsOf outcomes ++ [o.package.script] := by
  simp only [scriptsOf, List.map_append, List.map_singleton, eraseDups_concat, List.mem_eraseDups]

/-- One more outcome comes last in the group of its script. -/
theorem ofScript_concat_self (outcomes : List Outcome) (o : Outcome) :
    ofScript (outcomes ++ [o]) o.package.script = ofScript outcomes o.package.script ++ [o] := by
  rw [ofScript, List.filter_append, List.filter_cons_of_pos (by simp), List.filter_nil, ofScript]

/-- It does not belong to any other group. -/
theorem ofScript_concat_of_ne {o : Outcome} {script : Text} (h : script ≠ o.package.script)
    (outcomes : List Outcome) : ofScript (outcomes ++ [o]) script = ofScript outcomes script := by
  rw [ofScript, List.filter_append, List.filter_cons_of_neg (by simpa using h.symm),
    List.filter_nil, List.append_nil, ofScript]

/-- So it changes nothing in groups of other scripts. -/
theorem groupsOf_concat {o : Outcome} {scripts : List Text} (h : o.package.script ∉ scripts)
    (outcomes : List Outcome) :
    groupsOf (outcomes ++ [o]) scripts = groupsOf outcomes scripts := by
  apply List.map_congr_left
  intro script hscript
  rw [ofScript_concat_of_ne (fun heq => h (heq ▸ hscript))]

/-- A further package of a script that has a group goes to the end of it. -/
theorem addToGroup_of_mem {o : Outcome} {scripts : List Text} (hnodup : scripts.Nodup)
    (h : o.package.script ∈ scripts) (outcomes : List Outcome) :
    addToGroup o (groupsOf outcomes scripts) = groupsOf (outcomes ++ [o]) scripts := by
  induction scripts with
  | nil => cases h
  | cons script scripts ih =>
    obtain ⟨hscript, hrest⟩ := List.nodup_cons.mp hnodup
    rw [groupsOf_cons, groupsOf_cons, addToGroup]
    by_cases heq : script = o.package.script
    · subst heq
      rw [if_pos rfl, ofScript_concat_self, groupsOf_concat hscript]
    · have hmem := (List.mem_cons.mp h).resolve_left (Ne.symm heq)
      rw [if_neg heq, ofScript_concat_of_ne heq, ih hrest hmem]

/-- A package of a new script starts a group after all the others. -/
theorem addToGroup_of_not_mem {o : Outcome} {scripts : List Text}
    (h : o.package.script ∉ scripts) (outcomes : List Outcome) :
    addToGroup o (groupsOf outcomes scripts) =
      groupsOf outcomes scripts ++ [(o.package.script, [o])] := by
  induction scripts with
  | nil => rfl
  | cons script scripts ih =>
    rw [List.mem_cons, not_or] at h
    rw [groupsOf_cons, addToGroup, if_neg (Ne.symm h.1), ih h.2, List.cons_append]

/-- The groups are those of the scripts in the order in which these first occur. -/
theorem byScript_eq (outcomes : List Outcome) :
    byScript outcomes = groupsOf outcomes (scriptsOf outcomes) := by
  induction outcomes using List.reverseRecOn with
  | nil => rfl
  | append_singleton outcomes o ih =>
    rw [byScript, List.foldl_concat, ← byScript, ih, scriptsOf_concat]
    split
    · next hscript => exact addToGroup_of_mem (nodup_eraseDups _) hscript outcomes
    · next hscript =>
      have hfirst : ofScript outcomes o.package.script = [] := by
        apply List.filter_eq_nil_iff.mpr
        intro p hp heq
        exact hscript (of_decide_eq_true heq ▸ mem_scriptsOf hp)
      rw [addToGroup_of_not_mem hscript, groupsOf_append, groupsOf_concat hscript, groupsOf_cons,
        ofScript_concat_self, hfirst]
      rfl

/-- The groups have every package once. -/
theorem flatMap_byScript_perm (outcomes : List Outcome) :
    ((byScript outcomes).flatMap Prod.snd).Perm outcomes := by
  have hnodup : (scriptsOf outcomes).Nodup := nodup_eraseDups _
  rw [byScript_eq, groupsOf, List.flatMap_map]
  exact flatMap_filter_perm (fun o : Outcome => o.package.script) hnodup fun _ => mem_scriptsOf

end Report

/-- **Nothing is lost or counted twice between a catalog and its report.** However the packages of
the scripts are mixed and whatever the skip list gives as reasons: the skip list leaves the packages
as they are; the counts by status and by installer each add up to the number of packages, those with
a reason being untested and the others pending; and the groups by script, which stand in the order
in which the scripts first occur, have exactly the packages of their scripts in their order, and
together every package once. -/
theorem outcomes_accounted (list : SkipList) (packages : List Package) :
    let outcomes := list.outcomes packages
    let summary := Summary.ofOutcomes outcomes
    outcomes.map Outcome.package = packages ∧
    (summary.total = packages.length ∧
      (summary.byStatus.map Prod.snd).sum = packages.length ∧
      (summary.byInstaller.map Prod.snd).sum = packages.length) ∧
    summary.byStatus =
      [(.pending, packages.countP fun p => (list.reason? p).isNone), (.passed, 0), (.failed, 0),
        (.untested, packages.countP fun p => (list.reason? p).isSome)] ∧
    summary.byInstaller =
      Installer.all.map (fun i => (i, packages.countP fun p => p.installer = i)) ∧
    ∀ results : List Outcome,
      let groups := Report.byScript results
      groups.map Prod.fst = (results.map fun o => o.package.script).eraseDups ∧
      (∀ script group, (script, group) ∈ groups →
        group = results.filter fun o => o.package.script = script) ∧
      (groups.flatMap Prod.snd).Perm results ∧
      (groups.map fun group => group.2.length).sum = results.length := by
  intro outcomes summary
  have hlength : outcomes.length = packages.length := List.length_map _
  refine ⟨list.map_package_outcomes packages, ⟨hlength, ?_, ?_⟩, ?_, ?_, fun results => ?_⟩
  · rw [← hlength]
    exact Summary.sum_byStatus outcomes
  · rw [← hlength]
    exact Summary.sum_byInstaller outcomes
  · have hcount := list.countP_status_outcomes packages
    simp only [summary, Summary.ofOutcomes, Status.all, List.map_cons, List.map_nil]
    rw [hcount .pending, hcount .passed, hcount .failed, hcount .untested]
  · apply List.map_congr_left
    intro installer _
    rw [← list.map_package_outcomes packages, List.countP_map]
    rfl
  · -- the groups have each result once, so their sizes add up
    have hperm := Report.flatMap_byScript_perm results
    refine ⟨?_, ?_, hperm, ?_⟩
    · rw [Report.byScript_eq, Report.groupsOf, List.map_map]
      exact List.map_id _
    · intro script group hgroup
      rw [Report.byScript_eq] at hgroup
      obtain ⟨other, -, heq⟩ := List.mem_map.mp hgroup
      cases heq
      rfl
    · rw [← hperm.length_eq, List.length_flatMap]

end SetupCatalog
