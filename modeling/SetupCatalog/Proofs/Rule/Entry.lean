import SetupCatalog.Proofs.Detector.Scan
import SetupCatalog.Proofs.Rule.Field

/-!
# The entries of containers

An entry is a line of a container that is no comment and has an identity on it. `scan_entries` says
that a container rule with nothing seen before accounts for every entry, either by a record or by
the remark that nothing consumes the container, and that there is an entry behind every record.

What could break this is spread over three places: the look at the whole container that decides
whether its lines are read (`mem_candidates_iff` is free of it), lines that belong to several
containers because these are nested, and records that are left out as repeated ones.
-/

namespace SetupCatalog.Rule.Container

open Text Pattern Script

/-- The label of an entry: its name without the blanks around it, or else its identity. -/
def labelOf (line id : Text) : Text :=
  match nameField.find? line with
  | some label => if strip label = [] then id else strip label
  | none => id

/-- The record of an entry whose identity field has the given value. -/
def entryPackage (script : Text) (consumer : Consumer) (line value : Text) : Package where
  name := labelOf line (strip value)
  id := strip value
  installer := consumer.installer
  script := script
  scope := consumer.scope

/-- A line of a container is an entry: it is no comment, and the first identity field on it has a
value that is not blank. -/
structure IsEntry (text : Text) (b : Block) (line value : Text) : Prop where
  block_mem : b ∈ blocks text
  line_mem : line ∈ lines b.body
  not_comment : isComment line = false
  field : idField.find? line = some value
  not_blank : strip value ≠ []

/-! ## Lines and records -/

/-- A line declares a package exactly if it is no comment and its identity is not blank. -/
theorem declared?_eq_some_iff {script line : Text} {consumer : Consumer} {p : Package} :
    declared? script consumer line = some p ↔
      isComment line = false ∧ ∃ value, idField.find? line = some value ∧ strip value ≠ [] ∧
        p = entryPackage script consumer line value := by
  have hlabel : ∀ id, (if (strip ((nameField.find? line).getD [])).isEmpty then id
      else strip ((nameField.find? line).getD [])) = labelOf line id := by
    intro id
    rw [labelOf]
    cases nameField.find? line with
    | none => rfl
    | some label => simp [List.isEmpty_iff]
  simp only [declared?, bind, Option.bind_eq_some_iff, Option.guard_eq_some', exists_const,
    Bool.not_eq_true', List.isEmpty_eq_false_iff, hlabel, pure, Option.some.injEq]
  refine and_congr_right fun _ => ?_
  constructor
  · rintro ⟨value, hvalue, hne, rfl⟩
    exact ⟨value, hvalue, hne, rfl⟩
  · rintro ⟨value, hvalue, hne, rfl⟩
    exact ⟨value, hvalue, hne, rfl⟩

theorem isUnknown_iff {consumer : Consumer} :
    consumer.isUnknown = true ↔ consumer.installer = .unknown := by
  simp [Consumer.isUnknown]

/-- The candidates are the records of the entries whose containers something consumes. Whether the
container as a whole has an identity field makes no difference. -/
theorem mem_candidates_iff {options : ScanOptions} {script text : Text} {p : Package} :
    p ∈ candidates options script text ↔
      ∃ b line value, IsEntry text b line value ∧
        (consumerOf b.variableName text options).installer ≠ .unknown ∧
        p = entryPackage script (consumerOf b.variableName text options) line value := by
  simp only [candidates, List.mem_flatMap]
  constructor
  · rintro ⟨b, hb, hp⟩
    split at hp
    · cases hp
    · next hskip =>
      rw [Bool.or_eq_true, not_or, isUnknown_iff] at hskip
      obtain ⟨line, hline, hdeclared⟩ := List.mem_filterMap.mp hp
      obtain ⟨hlive, value, hvalue, hne, rfl⟩ := declared?_eq_some_iff.mp hdeclared
      exact ⟨b, line, value, ⟨hb, hline, hlive, hvalue, hne⟩, hskip.2, rfl⟩
  · rintro ⟨b, line, value, entry, hconsumer, rfl⟩
    refine ⟨b, entry.block_mem, ?_⟩
    -- a block with an entry declares identities, so it is not skipped for having none
    have hwhole : declaresIds b = true := occursIn_of_find?_line entry.line_mem entry.field
    rw [if_neg (by rw [hwhole, Bool.not_true, Bool.false_or, isUnknown_iff]; exact hconsumer)]
    exact List.mem_filterMap.mpr ⟨line, entry.line_mem,
      declared?_eq_some_iff.mpr ⟨entry.not_comment, value, entry.field, entry.not_blank, rfl⟩⟩

/-- A container with an entry that nothing consumes is remarked on. -/
theorem unconsumed_mem_remarks {options : ScanOptions} {text : Text} {b : Block}
    {line value : Text} (entry : IsEntry text b line value)
    (hunknown : (consumerOf b.variableName text options).installer = .unknown) :
    unconsumed b ∈ remarks options text := by
  have hwhole : declaresIds b = true := occursIn_of_find?_line entry.line_mem entry.field
  refine List.mem_map.mpr ⟨b, List.mem_filter.mpr ⟨entry.block_mem, ?_⟩, rfl⟩
  rw [hwhole, Bool.true_and, isUnknown_iff]
  exact hunknown

/-- The remark as it is reported: with the name of the rule and the variable of the container. -/
theorem labelled_unconsumed (options : ScanOptions) (earlier : List Text) (b : Block) :
    (⟨.container, options, earlier⟩ : Detector).labelled (unconsumed b) =
      "[Hashtable] $".toList ++ b.variableName ++
        (" declares package ids but no install loop consuming it was found; " ++
          "entries skipped").toList := by
  have hhead : "[Hashtable] $".toList = '[' :: Rule.container.name ++ "] ".toList ++ ['$'] := rfl
  rw [Detector.labelled, unconsumed, hhead]
  simp only [List.append_assoc, List.cons_append, List.nil_append]

/-! ## The rule at work -/

/-- **Every entry is accounted for, and nothing else is.** With nothing seen before, each entry of
each container either has a record with its identity and the installer of the loop that consumes the
container, or nothing consumes the container and a remark names its variable. The other way round,
each record is that of such an entry. -/
theorem scan_entries (options : ScanOptions) (earlier : List Text) (script text : Text) :
    let run := (⟨.container, options, earlier⟩ : Detector).scan script text []
    let consumer := fun b : Block => consumerOf b.variableName text options
    (∀ b line value, IsEntry text b line value →
      ((consumer b).installer ≠ .unknown ∧
        ∃ p ∈ run.1, p.id = strip value ∧ p.installer = (consumer b).installer) ∨
      ((consumer b).installer = .unknown ∧
        "[Hashtable] $".toList ++ b.variableName ++
          (" declares package ids but no install loop consuming it was found; " ++
            "entries skipped").toList ∈ run.2.2.remarks)) ∧
    ∀ p ∈ run.1, ∃ b line value, IsEntry text b line value ∧
      (consumer b).installer ≠ .unknown ∧ p = entryPackage script (consumer b) line value := by
  intro run consumer
  have hrun : run.1 = newPackages [] (candidates options script text) := rfl
  have hremarks : run.2.2.remarks =
      earlier ++ (remarks options text).map
        (⟨.container, options, earlier⟩ : Detector).labelled := rfl
  constructor
  · intro b line value entry
    by_cases hunknown : (consumer b).installer = .unknown
    · refine Or.inr ⟨hunknown, ?_⟩
      rw [← labelled_unconsumed options earlier, hremarks]
      exact List.mem_append_right earlier
        (List.mem_map_of_mem (unconsumed_mem_remarks entry hunknown))
    · refine Or.inl ⟨hunknown, ?_⟩
      have hp : entryPackage script (consumer b) line value ∈ candidates options script text :=
        mem_candidates_iff.mpr ⟨b, line, value, entry, hunknown, rfl⟩
      -- the entry itself may have been dropped, but then a package with its key came first
      obtain ⟨q, hq, hkey⟩ := exists_newPackages hp List.not_mem_nil
      obtain ⟨hinstaller, hid⟩ := Package.key_eq_iff.mp hkey
      exact ⟨q, hrun ▸ hq, hid, hinstaller⟩
  · intro p hp
    rw [hrun] at hp
    exact mem_candidates_iff.mp (mem_newPackages hp).1

end SetupCatalog.Rule.Container
