import SetupCatalog.Proofs.Catalog.Independence
import SetupCatalog.Proofs.Detector.Segments
import SetupCatalog.Proofs.Text.Around

/-!
# Distances below zero

The distances of a scan can be any integers. One below zero is not an empty reach. The window of a
loop and the window of an address have a right bound that can fall below zero, where it counts from
the end of the text; and the left bound of an address window moves behind the call. Only the window
of a name takes a distance below zero as none at all.

`ScanOptions.clamped` are the options with zero in the place of every distance below it.
`report_clamped_iff` says for every script exactly when a scan reports the same with them: a loop
must not find an installer in a window that counts from the end, and the two address windows must
give the same address.
-/

namespace SetupCatalog

open Text Pattern Script

/-- The options with zero in the place of every distance below zero. -/
def ScanOptions.clamped (options : ScanOptions) : ScanOptions where
  loopLookahead := max 0 options.loopLookahead
  nameLookback := max 0 options.nameLookback
  urlBefore := max 0 options.urlBefore
  urlAfter := max 0 options.urlAfter
  defaultScope := options.defaultScope

@[simp] theorem ScanOptions.loopLookahead_clamped (options : ScanOptions) :
    options.clamped.loopLookahead = max 0 options.loopLookahead := rfl

@[simp] theorem ScanOptions.nameLookback_clamped (options : ScanOptions) :
    options.clamped.nameLookback = max 0 options.nameLookback := rfl

/-! ## The windows of a scan -/

/-- What is searched for the installer of a loop that starts at a spot. -/
def Script.loopWindow (options : ScanOptions) (text : Text) (start : Nat) : Text :=
  around text start 0 options.loopLookahead

/-- What is searched for the name of the package that the call at a spot sideloads. -/
def Rule.Sideload.nameWindow (options : ScanOptions) (text : Text) (call : Nat) : Text :=
  around text call options.nameLookback 0

/-- What is searched for the address of the package that the call at a spot sideloads. -/
def Rule.Sideload.addressWindow (options : ScanOptions) (text : Text) (call : Nat) : Text :=
  around text call options.urlBefore options.urlAfter

/-! ## Loops -/

namespace Script

variable {options : ScanOptions} {text variableName : Text}

/-- A look ahead that would end before the text begins at the start of the loop and leaves out only
as many characters from the end of the text. -/
theorem loopWindow_of_neg {start : Nat} (h : start + options.loopLookahead < 0) :
    loopWindow options text start =
      (text.drop start).take (text.length + options.loopLookahead).toNat := by
  have hsize : (start + options.loopLookahead + text.length).toNat - start =
      (text.length + options.loopLookahead).toNat := by
    omega
  rw [loopWindow, around_of_neg h, Int.sub_zero, Int.toNat_natCast, List.drop_take, hsize]

/-- The consumer of a variable is read off the window behind the first pipeline. -/
theorem consumerOf_eq_consumerIn {start : Hit Unit}
    (h : (consumerStart variableName).first? text = some start) :
    consumerOf variableName text options =
      consumerIn (loopWindow options text start.offset) options.defaultScope := by
  have hbound : max 0 ((start.offset : Int) - 0) = start.offset := by omega
  rw [consumerOf, h, loopWindow, around, hbound]

/-- Without a pipeline there is no consumer. -/
theorem consumerOf_eq_unknown (h : (consumerStart variableName).first? text = none) :
    consumerOf variableName text options = ⟨.unknown, options.defaultScope⟩ := by
  rw [consumerOf, h]

/-- A consumer that is not known has the default scope. -/
theorem consumerIn_isUnknown_iff {window defaultScope : Text} :
    (consumerIn window defaultScope).isUnknown = true ↔
      consumerIn window defaultScope = ⟨.unknown, defaultScope⟩ := by
  constructor
  · intro h
    -- the three calls are looked for in turn, and any of them names an installer
    unfold consumerIn at h ⊢
    cases hwinget : wingetCall.find? window with
    | some arguments =>
      rw [hwinget] at h
      dsimp only at h
      split at h <;> cases h
    | none =>
      rw [hwinget] at h
      dsimp only at h ⊢
      split at h
      · cases h
      · next hchoco =>
        rw [if_neg hchoco]
        split at h
        · cases h
        · next hscoop => rw [if_neg hscoop]
  · intro h
    rw [h]
    rfl

/-- An empty window has no call in it. -/
theorem consumerIn_nil (defaultScope : Text) :
    consumerIn [] defaultScope = ⟨.unknown, defaultScope⟩ := rfl

/-- A consumer that is not known has the default scope. -/
theorem consumerOf_eq_of_isUnknown (h : (consumerOf variableName text options).isUnknown = true) :
    consumerOf variableName text options = ⟨.unknown, options.defaultScope⟩ := by
  cases hstart : (consumerStart variableName).first? text with
  | none => exact consumerOf_eq_unknown hstart
  | some start =>
    rw [consumerOf_eq_consumerIn hstart] at h ⊢
    exact consumerIn_isUnknown_iff.mp h

/-- Nothing consumes a variable if no character of a pipeline over it is looked at. -/
theorem consumerOf_clamped_of_neg (h : options.loopLookahead < 0) :
    consumerOf variableName text options.clamped = ⟨.unknown, options.defaultScope⟩ := by
  cases hstart : (consumerStart variableName).first? text with
  | none => exact consumerOf_eq_unknown hstart
  | some start =>
    rw [consumerOf_eq_consumerIn hstart, loopWindow, ScanOptions.loopLookahead_clamped,
      around_eq_nil (by omega) (by omega), consumerIn_nil]
    rfl

/-- A distance that is not negative is not clamped. -/
theorem consumerOf_clamped_of_nonneg (h : 0 ≤ options.loopLookahead) :
    consumerOf variableName text options.clamped = consumerOf variableName text options := by
  simp only [consumerOf, ScanOptions.loopLookahead_clamped, Int.max_eq_right h]
  rfl

/-- The look ahead from the first pipeline over a variable finds no installer where it counts from
the end of the text. -/
def FindsNoneWrapped (options : ScanOptions) (variableName text : Text) : Prop :=
  ∀ start, (consumerStart variableName).first? text = some start →
    start.offset + options.loopLookahead < 0 →
      (consumerIn ((text.drop start.offset).take (text.length + options.loopLookahead).toNat)
        options.defaultScope).isUnknown = true

/-- A variable has the same consumer if the look ahead is clamped, unless the look ahead counts from
the end of the text and finds an installer there. -/
theorem consumerOf_clamped_iff :
    consumerOf variableName text options = consumerOf variableName text options.clamped ↔
      FindsNoneWrapped options variableName text := by
  rcases Int.lt_or_le options.loopLookahead 0 with hneg | hahead
  -- the clamped look ahead finds nothing, so the other one must find nothing either
  · rw [consumerOf_clamped_of_neg hneg]
    cases hstart : (consumerStart variableName).first? text with
    | none =>
      refine iff_of_true (consumerOf_eq_unknown hstart) fun start hsome => ?_
      rw [hstart] at hsome
      cases hsome
    | some start =>
      have hunique : FindsNoneWrapped options variableName text ↔
          (start.offset + options.loopLookahead < 0 →
            (consumerIn ((text.drop start.offset).take (text.length + options.loopLookahead).toNat)
              options.defaultScope).isUnknown = true) := by
        simp only [FindsNoneWrapped, hstart, Option.some.injEq, forall_eq']
      rw [hunique, consumerOf_eq_consumerIn hstart]
      rcases Int.lt_or_le (start.offset + options.loopLookahead) 0 with hwrapped | hright
      · rw [loopWindow_of_neg hwrapped, consumerIn_isUnknown_iff, forall_prop_of_true hwrapped]
      · rw [loopWindow, around_eq_nil hright (by omega)]
        exact iff_of_true (consumerIn_nil _) fun hwrapped => absurd hright (Int.not_le.mpr hwrapped)
  · rw [consumerOf_clamped_of_nonneg hahead]
    refine iff_of_true rfl fun start _ hwrapped => ?_
    omega

end Script

/-! ## Containers -/

namespace Rule.Container

variable {options : ScanOptions} {text : Text}

/-- No container that declares packages gets its installer from a look ahead that counts from the
end of the text. -/
def Unaffected (options : ScanOptions) (text : Text) : Prop :=
  ∀ b ∈ blocks text, declaresIds b = true → FindsNoneWrapped options b.variableName text

/-- Containers declare the same with a clamped lookahead, if none of their consumers is affected. -/
theorem candidates_clamped (h : Unaffected options text) (script : Text) :
    candidates options script text = candidates options.clamped script text := by
  refine List.flatMap_congr fun b hb => ?_
  cases hdeclares : declaresIds b with
  | false => rfl
  | true => rw [consumerOf_clamped_iff.mpr (h b hb hdeclares)]

/-- They are remarked on in the same way. -/
theorem remarks_clamped (h : Unaffected options text) :
    remarks options text = remarks options.clamped text := by
  refine congrArg (List.map unconsumed) (List.filter_congr fun b hb => ?_)
  cases hdeclares : declaresIds b with
  | false => rfl
  | true => rw [consumerOf_clamped_iff.mpr (h b hb hdeclares)]

/-- With a look ahead below zero, clamping leaves every container without a consumer. So as many
remarks as before mean that none had one. -/
theorem unaffected_of_length_remarks
    (h : (remarks options text).length = (remarks options.clamped text).length) :
    Unaffected options text := by
  intro b hb hdeclares
  refine consumerOf_clamped_iff.mp ?_
  -- a clamped distance of zero finds no consumer, so every declaring block is remarked on. As many
  -- remarks without clamping mean that no block has a consumer there either
  rcases Int.lt_or_le options.loopLookahead 0 with hneg | hahead
  · let declaring := (blocks text).filter declaresIds
    have hclamped : remarks options.clamped text = declaring.map unconsumed := by
      refine congrArg (List.map unconsumed) (List.filter_congr fun b _ => ?_)
      rw [consumerOf_clamped_of_neg hneg]
      exact Bool.and_true _
    have hremarks : remarks options text = (declaring.filter fun b =>
        (consumerOf b.variableName text options).isUnknown).map unconsumed := by
      rw [remarks, List.filter_filter]
      exact congrArg (List.map unconsumed) (List.filter_congr fun b _ => Bool.and_comm _ _)
    rw [hclamped, hremarks, List.length_map, List.length_map,
      List.length_filter_eq_length_iff] at h
    have hunknown := h b (List.mem_filter.mpr ⟨hb, hdeclares⟩)
    rw [consumerOf_clamped_of_neg hneg, consumerOf_eq_of_isUnknown hunknown]
  · exact (consumerOf_clamped_of_nonneg hahead).symm

end Rule.Container

/-! ## Sideloads -/

namespace Rule.Sideload

variable {options : ScanOptions} {text script : Text}

/-- The first sideload of a text gets the address that it gets if the distances are clamped. -/
def Unaffected (options : ScanOptions) (text : Text) : Prop :=
  ∀ call, marker.first? text = some call →
    addressIn (addressWindow options text call.offset) =
      addressIn (addressWindow options.clamped text call.offset)

/-- A window for a name ends at the call, so it holds nothing if its reach is below zero. -/
theorem nameWindow_clamped (call : Nat) :
    nameWindow options.clamped text call = nameWindow options text call := by
  rw [nameWindow, nameWindow, ScanOptions.nameLookback_clamped]
  rcases Int.lt_or_le options.nameLookback 0 with hneg | hback
  · rw [around_eq_nil (by omega) (by omega), around_eq_nil (by omega) (by omega)]
  · rw [Int.max_eq_right hback]

/-- What a sideload declares is read off its two windows. -/
theorem declaredAt_eq (call : Nat) :
    declaredAt options script text call =
      { plainPackage .sideload script (addressIn (addressWindow options text call)) with
        name := nameIn (nameWindow options text call) } := by
  rw [nameWindow, around, Int.add_zero]
  rfl

/-- Sideloads declare the same with clamped distances, if no call is affected. -/
theorem candidates_clamped (h : Unaffected options text) :
    candidates options script text = candidates options.clamped script text := by
  rw [candidates, candidates]
  cases hfirst : marker.first? text with
  | none => rfl
  | some call =>
    rw [Option.map_some, Option.map_some, declaredAt_eq, declaredAt_eq, nameWindow_clamped,
      h call hfirst]

/-- The sideloads among the packages found are those that the rule recognises. -/
theorem mem_packagesOf_iff {p : Package} (h : p.installer = .sideload) :
    p ∈ packagesOf script text options ↔ p ∈ candidates options script text := by
  rw [packagesOf_eq_segments, List.mem_flatMap]
  constructor
  · rintro ⟨rule, -, hp⟩
    have hmem := (shape_of_mem_candidates (mem_segmentOf hp)).1
    rw [h] at hmem
    obtain rfl := eq_sideload_of_mem_installers hmem
    rwa [segmentOf_eq] at hp
  · intro hp
    refine ⟨.sideload, by decide, ?_⟩
    rwa [segmentOf_eq]

/-- If the packages are the same, no sideload is affected: each has a package of its own. -/
theorem unaffected_of_packagesOf
    (h : packagesOf script text options = packagesOf script text options.clamped) :
    Unaffected options text := by
  intro call hcall
  have hmem : declaredAt options script text call.offset ∈
      candidates options.clamped script text := by
    rw [← mem_packagesOf_iff rfl, ← h, mem_packagesOf_iff rfl]
    exact mem_candidates_iff.mpr ⟨call, hcall, rfl⟩
  obtain ⟨call', hcall', hsame⟩ := mem_candidates_iff.mp hmem
  cases hcall.symm.trans hcall'
  exact congrArg Package.id hsame

end Rule.Sideload

/-! ## The report -/

section

variable {options : ScanOptions} {text script : Text}

/-- Clamping the distances changes nothing that a rule recognises if it affects neither the
containers nor the sideload. -/
theorem Rule.candidates_clamped (hcontainers : Container.Unaffected options text)
    (hsideload : Sideload.Unaffected options text) (rule : Rule) :
    rule.candidates options script text = rule.candidates options.clamped script text := by
  cases rule with
  | container => exact Container.candidates_clamped hcontainers script
  | sideload => exact Sideload.candidates_clamped hsideload
  | _ => rfl

/-- Of the rules only containers look ahead for their remarks. -/
theorem Rule.remarks_clamped (hcontainers : Container.Unaffected options text) (rule : Rule) :
    rule.remarks options text = rule.remarks options.clamped text := by
  cases rule with
  | container => exact Container.remarks_clamped hcontainers
  | _ => rfl

/-- The remarks on a script are those of the rules, one rule after the other. -/
theorem remarksOf_eq : remarksOf script text options =
    Rule.all.flatMap fun rule => (rule.remarks options text).map fun remark =>
      LineUp.attributed script (({ rule } : Detector).labelled remark) := by
  rw [remarksOf, LineUp.scan_remarks, LineUp.standard, List.flatMap_map]
  refine List.flatMap_congr fun rule _ => ?_
  rw [Detector.remarked, List.map_map]
  rfl

/-- The report of the standard line-up on one source, as packages and remarks. -/
theorem report_standard (s : Source) : (LineUp.standard options).report s =
    (packagesOf s.name s.text options, remarksOf s.name s.text options) := rfl

/-- The remarks are those on containers and those on sideloads. -/
theorem length_remarksOf : (remarksOf script text options).length =
    (Rule.Container.remarks options text).length + (Rule.Sideload.remarks text).length := by
  simp [remarksOf_eq, Rule.all, Rule.remarks]

end

/-- **What distances below zero do.** A scan reports the packages and the remarks of a scan with the
clamped options if and only if no container gets its installer from a look ahead that counts from
the end of the text, and the sideload gets the address that it gets from the clamped window.

Every name window stays within its distance, and holds what the clamped one holds. The window of a
loop or of an address does so unless its right bound falls below zero while enough of the text is
left behind the spot. -/
theorem report_clamped_iff (options : ScanOptions) (s : Source) :
    ((LineUp.standard options).report s = (LineUp.standard options.clamped).report s ↔
      Rule.Container.Unaffected options s.text ∧ Rule.Sideload.Unaffected options s.text) ∧
    ∀ spot : Nat,
      (Within (loopWindow options s.text spot) s.text spot 0 (max 0 options.loopLookahead) ↔
        0 ≤ spot + options.loopLookahead ∨ s.text.length + options.loopLookahead ≤ 0) ∧
      (Within (Rule.Sideload.nameWindow options s.text spot) s.text spot
          (max 0 options.nameLookback) 0 ∧
        Rule.Sideload.nameWindow options.clamped s.text spot =
          Rule.Sideload.nameWindow options s.text spot) ∧
      (Within (Rule.Sideload.addressWindow options s.text spot) s.text spot
          (max 0 options.urlBefore) (max 0 options.urlAfter) ↔
        0 ≤ spot + options.urlAfter ∨
          s.text.length + options.urlAfter ≤ max 0 (-options.urlBefore)) := by
  rw [report_standard, report_standard, Prod.mk.injEq]
  refine ⟨⟨?_, ?_⟩, fun spot => ⟨?_, ⟨?_, ?_⟩, ?_⟩⟩
  -- the remarks tell which containers have a consumer, and the packages which address is found
  · rintro ⟨hpackages, hremarks⟩
    have hlength := congrArg List.length hremarks
    rw [length_remarksOf, length_remarksOf, Nat.add_right_cancel_iff] at hlength
    exact ⟨Rule.Container.unaffected_of_length_remarks hlength,
      Rule.Sideload.unaffected_of_packagesOf hpackages⟩
  · rintro ⟨hcontainers, hsideload⟩
    rw [packagesOf_eq, packagesOf_eq, remarksOf_eq, remarksOf_eq]
    refine ⟨congrArg (newPackages []) (List.flatMap_congr fun rule _ => ?_),
      List.flatMap_congr fun rule _ => ?_⟩
    · exact rule.candidates_clamped hcontainers hsideload
    · rw [rule.remarks_clamped hcontainers]
  · have hwithin := @around_within_iff s.text spot 0 options.loopLookahead
    rwa [Int.max_self, Int.neg_zero, Int.max_self] at hwithin
  · have hwithin := @around_within_iff s.text spot options.nameLookback 0
    rw [Int.max_self] at hwithin
    exact hwithin.mpr (.inl (by omega))
  · exact Rule.Sideload.nameWindow_clamped spot
  · exact around_within_iff

-- the loop stands far enough from the start of the text, so nothing counts from the end
example :
    let s : Source := ⟨"a.ps1".toList,
      "$A = @\x7b 'g' = @\x7b Id = 'git' \x7d \x7d\n$A.Keys | % \x7b choco install $_ \x7d".toList⟩
    let options : ScanOptions := { loopLookahead := -1 }
    (LineUp.standard options).report s = (LineUp.standard options.clamped).report s := by
  decide

/-- Two scripts, and distances of one character below zero. The one starts with the loop, and the
look ahead that counts from the end of the text finds the call in it. In the other one an address
stands behind the call of `Add-AppxPackage`, in a window that leaves out the first and the last
character of the text. With the clamped options the container has no consumer, and no address is
found. -/
theorem report_ne_clamped :
    let loop : Source := ⟨"a.ps1".toList,
      "$A.Keys | % \x7b choco install $_ \x7d\n$A = @\x7b 'g' = @\x7b Id = 'git' \x7d \x7d".toList⟩
    let sideload : Source := ⟨"a.ps1".toList,
      "Add-AppxPackage a; iwr https://e.org/app.msix # x".toList⟩
    let options : ScanOptions := { loopLookahead := -1, urlBefore := -1, urlAfter := -1 }
    ((LineUp.standard options).report loop ≠ (LineUp.standard options.clamped).report loop ∧
      ((LineUp.standard options).report loop).1.map Package.id = ["git".toList] ∧
      ((LineUp.standard options.clamped).report loop).1 = []) ∧
    ((LineUp.standard options).report sideload ≠
        (LineUp.standard options.clamped).report sideload ∧
      ((LineUp.standard options).report sideload).1.map Package.id =
        ["https://e.org/app.msix".toList] ∧
      ((LineUp.standard options.clamped).report sideload).1.map Package.id =
        ["unknown".toList]) ∧
    ¬ Within (loopWindow options loop.text 0) loop.text 0 0 (max 0 options.loopLookahead) := by
  intro loop sideload options
  refine ⟨⟨by decide, by decide, by decide⟩, ⟨by decide, by decide, by decide⟩, ?_⟩
  -- the window holds something, and the distances leave no room for it
  · have hne : loopWindow options loop.text 0 ≠ [] := by decide
    have hlookahead : max 0 options.loopLookahead = 0 := rfl
    rintro (hnil | ⟨before, after, -, -, hroom⟩)
    · exact hne hnil
    · have hpos := List.length_pos_iff.mpr hne
      omega

end SetupCatalog
