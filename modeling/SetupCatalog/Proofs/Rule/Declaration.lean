import SetupCatalog.Proofs.Rule.Entry

/-!
# What stands behind a record

For each rule, which records it recognises: the spot of the script that declares the package, what
is read there, and the record that is made of it. A record has no other source, and whatever else is
said about recognised packages follows from these statements without another look at the rules.
(`Container.mem_candidates_iff` is the one for containers.)

The first thing that follows is that a record names the script that it was found in.
-/

namespace SetupCatalog.Rule

open Text Pattern Script

/-- The record of a package that has no name besides its identity. -/
def plainPackage (installer : Installer) (script id : Text) : Package where
  name := id
  id := id
  installer := installer
  script := script

/-- The values of the literals of a loop, if the line that the loop starts on is no comment and its
body installs something. -/
theorem PipedArray.mem_candidates_iff {script text : Text} {p : Package} :
    p ∈ PipedArray.candidates script text ↔
      ∃ hit ∈ PipedArray.loop.all text, isComment (PipedArray.lineBefore hit) = false ∧
        ∃ installer, PipedArray.installerIn hit.found.body = some installer ∧
          ∃ value ∈ PipedArray.literalValues hit.found.run,
            p = plainPackage installer script value := by
  simp only [PipedArray.candidates, List.mem_flatMap, PipedArray.declared]
  refine exists_congr fun hit => and_congr_right fun _ => ?_
  cases hcomment : isComment (PipedArray.lineBefore hit) with
  | true => simp
  | false =>
    cases hinstaller : PipedArray.installerIn hit.found.body with
    | none => simp
    | some installer =>
      simp only [Bool.false_eq_true, if_false, List.mem_map, Option.some.injEq, true_and,
        exists_eq_left']
      refine exists_congr fun value => and_congr_right fun _ => eq_comm

/-- The package that a free line names after a call of Chocolatey. -/
theorem Choco.mem_candidates_iff {script text : Text} {p : Package} :
    p ∈ Choco.candidates script text ↔
      ∃ line ∈ freeLines text, ∃ arguments, chocoCall.find? line = some arguments ∧
        ∃ name, Choco.packageOf arguments = some name ∧ p = plainPackage .choco script name := by
  simp only [Choco.candidates, List.mem_filterMap, Choco.declared?, bind,
    Option.bind_eq_some_iff, pure, Option.some.injEq]
  refine exists_congr fun line => and_congr_right fun _ => ?_
  refine exists_congr fun arguments => and_congr_right fun _ => ?_
  refine exists_congr fun name => and_congr_right fun _ => eq_comm

/-- The package that a free line gives the identity of after a call of winget. -/
theorem Winget.mem_candidates_iff {options : ScanOptions} {script text : Text} {p : Package} :
    p ∈ Winget.candidates options script text ↔
      ∃ line ∈ freeLines text, ∃ arguments, wingetCall.find? line = some arguments ∧
        ∃ id, Winget.idOf arguments = some id ∧
          p = { plainPackage .winget script id with
            scope := scopeOf arguments options.defaultScope } := by
  simp only [Winget.candidates, List.mem_filterMap, Winget.declared?, bind,
    Option.bind_eq_some_iff, pure, Option.some.injEq]
  refine exists_congr fun line => and_congr_right fun _ => ?_
  refine exists_congr fun arguments => and_congr_right fun _ => ?_
  refine exists_congr fun id => and_congr_right fun _ => eq_comm

/-- The module that a line which is no comment names after a call of `Install-Module`. -/
theorem PsModule.mem_candidates_iff {script text : Text} {p : Package} :
    p ∈ PsModule.candidates script text ↔
      ∃ line ∈ lines text, isComment line = false ∧
        ∃ arguments, PsModule.moduleCall.find? line = some arguments ∧
          ∃ name, PsModule.moduleOf arguments = some name ∧
            p = { plainPackage .psModule script name with
              extraArgs := PsModule.keptArguments arguments } := by
  simp only [PsModule.candidates, List.mem_filterMap, PsModule.declared?, bind,
    Option.bind_eq_some_iff, Option.guard_eq_some', exists_const, Bool.not_eq_true', pure,
    Option.some.injEq]
  refine exists_congr fun line => and_congr_right fun _ => and_congr_right fun _ => ?_
  refine exists_congr fun arguments => and_congr_right fun _ => ?_
  refine exists_congr fun name => and_congr_right fun _ => eq_comm

/-- The package that the first call of `Add-AppxPackage` sideloads. -/
theorem Sideload.mem_candidates_iff {options : ScanOptions} {script text : Text} {p : Package} :
    p ∈ Sideload.candidates options script text ↔
      ∃ hit, Sideload.marker.first? text = some hit ∧
        p = Sideload.declaredAt options script text hit.offset := by
  simp only [Sideload.candidates, Option.mem_toList, Option.map_eq_some_iff]
  refine exists_congr fun hit => and_congr_right fun _ => eq_comm

/-- Every rule attributes what it recognises to the script. -/
theorem script_of_mem_candidates {rule : Rule} {options : ScanOptions} {script text : Text}
    {p : Package} (h : p ∈ rule.candidates options script text) : p.script = script := by
  -- every rule writes the name of the script into what it finds
  cases rule with
  | container =>
    obtain ⟨b, line, value, -, -, rfl⟩ := Container.mem_candidates_iff.mp h
    rfl
  | pipedArray =>
    obtain ⟨hit, -, -, installer, -, value, -, rfl⟩ := PipedArray.mem_candidates_iff.mp h
    rfl
  | choco =>
    obtain ⟨line, -, arguments, -, name, -, rfl⟩ := Choco.mem_candidates_iff.mp h
    rfl
  | winget =>
    obtain ⟨line, -, arguments, -, id, -, rfl⟩ := Winget.mem_candidates_iff.mp h
    rfl
  | psModule =>
    obtain ⟨line, -, -, arguments, -, name, -, rfl⟩ := PsModule.mem_candidates_iff.mp h
    rfl
  | sideload =>
    obtain ⟨hit, -, rfl⟩ := Sideload.mem_candidates_iff.mp h
    rfl

end SetupCatalog.Rule
