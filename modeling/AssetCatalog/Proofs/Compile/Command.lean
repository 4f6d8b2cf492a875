import AssetCatalog.Proofs.Compile.Course
import AssetCatalog.Proofs.Layout.Naming
/-! # What the input can change in a command

The command for a catalog has a fixed form.  The input fills three of its places: the target, in
an argument of its own behind a fixed beginning, the scratch directory, and the catalog itself
(`Confined`).  The catalog and its icon package come last and in full, so that neither can be
taken for an option, however the path is spelled.  The tag of the catalog has no influence but
by way of the path. -/

set_option autoImplicit false

namespace AssetCatalog

namespace Compile

/-- The arguments of a command in which the input has no say beyond the places that are left to
it. -/
structure Confined (catalog scratch : Place) (target : String) (arguments : List String) :
    Prop where
  count : arguments.length = 15
  fixed : arguments.take 10 = CompileCommand.fixedArguments
  targeted : arguments[10]? = some ("--minimum-deployment-target=" ++ target)
  into : arguments[12]? = some ("--compile=" ++ scratch.text)
  children : ∃ partialList staged, Layout.Child scratch "partial.plist" partialList ∧
    Layout.Child scratch "AppIcon.icon" staged ∧ partialList ≠ staged ∧
    arguments[11]? = some ("--output-partial-info-plist=" ++ partialList.text) ∧
    arguments[14]? = some staged.text
  named : arguments[13]? = some catalog.text
  operands : ∀ argument ∈ arguments.drop 13, argument.toList.head? = some '/'

section

variable {request other : Request} {layout otherLayout : Layout} {scratch : Place}

theorem child_partialList (scratch : Place) :
    Layout.Child scratch "partial.plist" (scratch.resolve OutputRole.partialInfoList.fileName) :=
  Layout.child_of_names (by decide) (Place.names_resolve_of_ordinary (by decide))

theorem child_staged (scratch : Place) :
    Layout.Child scratch "AppIcon.icon" (scratch.enter stagedName) :=
  Layout.child_of_names (by decide) (Place.enter_of_ordinary (by decide))

theorem partialList_ne_staged (scratch : Place) :
    scratch.resolve OutputRole.partialInfoList.fileName ≠ scratch.enter stagedName := by
  intro same
  have names := (child_partialList scratch).names
  rw [same, (child_staged scratch).names, List.append_cancel_left_eq] at names
  exact absurd names (by decide)

theorem argumentsFor_eq (request : Request) (layout : Layout) (scratch : Place) :
    argumentsFor request layout scratch = CompileCommand.fixedArguments ++
      ["--minimum-deployment-target=" ++ request.target,
        "--output-partial-info-plist="
          ++ (scratch.resolve OutputRole.partialInfoList.fileName).text,
        "--compile=" ++ scratch.text, layout.catalog.text, (scratch.enter stagedName).text] := by
  rw [(child_partialList scratch).text]
  rfl

theorem head?_text (place : Place) : place.text.toList.head? = some '/' := by
  simpa [Path.isAbsolute] using Place.isAbsolute_text place

theorem confined_argumentsFor (request : Request) (layout : Layout) (scratch : Place) :
    Confined layout.catalog scratch request.target (argumentsFor request layout scratch) := by
  rw [argumentsFor_eq]
  refine ⟨rfl, rfl, rfl, rfl, ?_, rfl, ?_⟩
  · exact ⟨_, _, child_partialList scratch, child_staged scratch, partialList_ne_staged scratch,
      rfl, rfl⟩
  · intro argument member
    have last : argument = layout.catalog.text ∨ argument = (scratch.enter stagedName).text := by
      simpa [CompileCommand.fixedArguments] using member
    rcases last with rfl | rfl
    · exact head?_text layout.catalog
    · exact head?_text (scratch.enter stagedName)

theorem eraseIdx_named (same : request.target = other.target) :
    (argumentsFor request layout scratch).eraseIdx 13
      = (argumentsFor other otherLayout scratch).eraseIdx 13 := by
  rw [argumentsFor_eq, argumentsFor_eq, same]
  rfl

theorem eraseIdx_targeted (same : layout.catalog = otherLayout.catalog) :
    (argumentsFor request layout scratch).eraseIdx 10
      = (argumentsFor other otherLayout scratch).eraseIdx 10 := by
  rw [argumentsFor_eq, argumentsFor_eq, same]
  rfl

theorem argumentsFor_congr (sameTarget : request.target = other.target)
    (sameCatalog : layout.catalog = otherLayout.catalog) :
    argumentsFor request layout scratch = argumentsFor other otherLayout scratch := by
  rw [argumentsFor_eq, argumentsFor_eq, sameTarget, sameCatalog]

end

/-- The compiler is called at most once in a compile, and only for a path that has a layout.  Its
arguments are confined, whatever the path, the target and the scratch directory are: another
target changes one argument and another catalog another one, and the tag changes none by
itself. -/
theorem command_confined (setting : Setting) (request : Request) (state : RunState) :
    (∃ calls, (one setting request state).2.calls = state.calls ++ calls ∧ calls.length ≤ 1 ∧
      ∀ call ∈ calls, ∃ layout scratch,
        Layout.ofPath setting.directory request.catalog = .ok layout ∧
        setting.scratchPlace scratchBeginning state.tree state.scratches = .ok scratch ∧
        call.arguments = argumentsFor request layout scratch) ∧
    ∀ layout, Layout.ofPath setting.directory request.catalog = .ok layout → ∀ scratch,
      Confined (setting.directory.resolve request.catalog) scratch request.target
        (argumentsFor request layout scratch) ∧
      ∀ (other : Request) (otherLayout : Layout),
        (request.target = other.target → (argumentsFor request layout scratch).eraseIdx 13
          = (argumentsFor other otherLayout scratch).eraseIdx 13) ∧
        (layout.catalog = otherLayout.catalog →
          (argumentsFor request layout scratch).eraseIdx 10
            = (argumentsFor other otherLayout scratch).eraseIdx 10) ∧
        (request.target = other.target → layout.catalog = otherLayout.catalog →
          argumentsFor request layout scratch = argumentsFor other otherLayout scratch) := by
  have course := course_one setting request state
  constructor
  · by_cases gets : Nonempty (Ready setting request state.toWork)
    · obtain ⟨ready⟩ := gets
      refine ⟨[ready.call], (course.calls.1 ready).1, Nat.le_refl 1, ?_⟩
      intro call member
      rw [List.mem_singleton.mp member]
      exact ⟨ready.layout, ready.scratch, ready.named, ready.opened, rfl⟩
    · refine ⟨[], ?_, Nat.zero_le 1, List.forall_mem_nil _⟩
      rw [List.append_nil]
      exact course.calls.2 fun ready => gets ⟨ready⟩
  · intro layout named scratch
    have catalog := (Layout.describes_of_ofPath named).catalog
    refine ⟨?_, fun other otherLayout => ⟨eraseIdx_named, eraseIdx_targeted, argumentsFor_congr⟩⟩
    rw [← catalog]
    exact confined_argumentsFor request layout scratch

end Compile

end AssetCatalog
