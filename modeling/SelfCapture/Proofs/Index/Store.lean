import SelfCapture.Index.Store
import Mathlib.Data.List.Basic
import Std.Data.HashMap.Lemmas

/-! # What the index answers

  A store answers what was loaded into it.  `Positions.record` and
  `Store.insert` are described by what they add at a key; by induction over
  the records, a store of units holds, under each normal path, the
  occurrences of all units with that path in the order of the units.
-/

namespace SelfCapture.Index

/-! ## Section 1: What was loaded -/

/-- The occurrences at a position, in order. -/
def occurrencesAt (occurrences : List Occurrence) (line column : Nat) : List Occurrence :=
  occurrences.filter fun occurrence => occurrence.line = line ∧ occurrence.column = column

/-- The units of a file, however its path is spelled. -/
def unitsOf (units : List FileRecords) (file : String) : List FileRecords :=
  units.filter fun unit => Path.normalize unit.file = Path.normalize file

/-- The occurrences at a position of a file in the order of the units. -/
def loaded (units : List FileRecords) (file : String) (line column : Nat) : List Occurrence :=
  (unitsOf units file).flatMap fun unit => occurrencesAt unit.occurrences line column

/-- The occurrence calls a Swift function. -/
structure Occurrence.Calls (occurrence : Occurrence) : Prop where
  isReference : occurrence.roles.contains .reference = true
  isCall : occurrence.roles.contains .call = true
  isCallable : occurrence.symbol.kind.isCallable = true
  isSwift : occurrence.symbol.language = .swift

/-- `name` is what the first call among the occurrences links to, if there is one. -/
def IsCallee (occurrences : List Occurrence) : Option String → Prop
  | some name => ∃ before call after, occurrences = before ++ call :: after ∧ call.Calls ∧
      (∀ occurrence ∈ before, ¬ occurrence.Calls) ∧ name = call.symbol.linkageName
  | none => ∀ occurrence ∈ occurrences, ¬ occurrence.Calls

/-! ## Section 2: Calls -/

/-- Roles contain others if and only if they have all of their bits. -/
theorem Roles.contains_iff (a b : Roles) :
    a.contains b = true ↔ ∀ i, b.bits.testBit i = true → a.bits.testBit i = true := by
  simp only [Roles.contains, beq_iff_eq]
  constructor
  · intro hcommon i hbit
    rw [← hcommon, Nat.testBit_and, Bool.and_eq_true] at hbit
    exact hbit.1
  · intro hbits
    refine Nat.eq_of_testBit_eq fun i => ?_
    rw [Nat.testBit_and]
    cases hbit : b.bits.testBit i with
    | false => exact Bool.and_false _
    | true => rw [hbits i hbit, Bool.and_self]

/-- Roles contain two others together if and only if they contain each. -/
theorem Roles.contains_union (a b c : Roles) :
    a.contains (b.union c) = true ↔ a.contains b = true ∧ a.contains c = true := by
  simp only [Roles.contains_iff, Roles.union, Nat.testBit_or, Bool.or_eq_true, or_imp, forall_and]

theorem Occurrence.isCall_iff (occurrence : Occurrence) :
    occurrence.isCall = true ↔ occurrence.Calls := by
  simp only [Occurrence.isCall, Bool.and_eq_true, Roles.contains_union, beq_iff_eq]
  constructor
  · rintro ⟨⟨⟨hreference, hcall⟩, hcallable⟩, hswift⟩
    exact ⟨hreference, hcall, hcallable, hswift⟩
  · rintro ⟨hreference, hcall, hcallable, hswift⟩
    exact ⟨⟨⟨hreference, hcall⟩, hcallable⟩, hswift⟩

theorem isCallee_calleeOf (occurrences : List Occurrence) :
    IsCallee occurrences (calleeOf occurrences) := by
  unfold calleeOf
  cases hfind : occurrences.find? (·.isCall) with
  | none =>
    intro occurrence hmem hcalls
    exact List.find?_eq_none.mp hfind occurrence hmem (occurrence.isCall_iff.mpr hcalls)
  | some call =>
    obtain ⟨hcall, before, after, hwhole, hbefore⟩ := List.find?_eq_some_iff_append.mp hfind
    refine ⟨before, call, after, hwhole, call.isCall_iff.mp hcall, ?_, rfl⟩
    intro occurrence hmem hcalls
    have hnot := hbefore occurrence hmem
    rw [occurrence.isCall_iff.mpr hcalls] at hnot
    cases hnot

/-! ## Section 3: Recording -/

namespace Positions

/-- One more occurrence is last at its own position and nowhere else. -/
theorem getD_record (positions : Positions) (occurrence : Occurrence) (line column : Nat) :
    (positions.record occurrence).getD (line, column) [] =
      positions.getD (line, column) [] ++ occurrencesAt [occurrence] line column := by
  by_cases hplace : occurrence.line = line ∧ occurrence.column = column
  · obtain ⟨rfl, rfl⟩ := hplace
    simp [record, occurrencesAt, Std.HashMap.getD_eq_getD_getElem?]
  · have hother : ((occurrence.line, occurrence.column) == (line, column)) = false := by
      simpa using hplace
    simp [record, occurrencesAt, hplace, Std.HashMap.getD_eq_getD_getElem?,
      Std.HashMap.getElem?_alter, hother]

/-- Occurrences recorded one after the other. -/
theorem getD_foldl_record (positions : Positions) (occurrences : List Occurrence)
    (line column : Nat) :
    (occurrences.foldl record positions).getD (line, column) [] =
      positions.getD (line, column) [] ++ occurrencesAt occurrences line column := by
  induction occurrences generalizing positions with
  | nil => simp [occurrencesAt]
  | cons occurrence others ih =>
    rw [List.foldl_cons, ih, getD_record, List.append_assoc]
    simp only [occurrencesAt, ← List.filter_append, List.singleton_append]

end Positions

namespace Store

/-- What a store holds for a file, found under its normal path only. -/
def held? (store : Store) (file : String) (line column : Nat) : Option (List Occurrence) :=
  store.files[Path.normalize file]?.map fun positions => positions.getD (line, column) []

/-- The records of one more file are added to those of the same normal path. -/
theorem held?_insert (store : Store) (unit : FileRecords) (file : String) (line column : Nat) :
    (store.insert unit).held? file line column =
      if Path.normalize unit.file = Path.normalize file then
        some ((store.held? file line column).getD [] ++
          occurrencesAt unit.occurrences line column)
      else store.held? file line column := by
  unfold held? insert
  split_ifs with hsame
  · rw [hsame]
    cases hheld : store.files[Path.normalize file]? <;>
      simp [Positions.getD_foldl_record, hheld]
  · have hother : (Path.normalize unit.file == Path.normalize file) = false := by
      simpa using hsame
    simp [Std.HashMap.getElem?_alter, hother]

/-- Units recorded one after the other. -/
theorem held?_foldl_insert (store : Store) (units : List FileRecords) (file : String)
    (line column : Nat) :
    (units.foldl insert store).held? file line column =
      if unitsOf units file = [] then store.held? file line column
      else some ((store.held? file line column).getD [] ++ loaded units file line column) := by
  induction units generalizing store with
  | nil => rfl
  | cons unit others ih =>
    rw [List.foldl_cons, ih, held?_insert]
    by_cases hsame : Path.normalize unit.file = Path.normalize file
    · have hfirst : unitsOf (unit :: others) file = unit :: unitsOf others file := by
        simp [unitsOf, hsame]
      -- Without further units of the file, `loaded` has nothing to add.
      by_cases hlast : unitsOf others file = [] <;> simp [hfirst, hsame, hlast, loaded]
    · have hskipped : unitsOf (unit :: others) file = unitsOf others file := by
        simp [unitsOf, hsame]
      simp [hskipped, hsame, loaded]

/-- A store of units holds a file if and only if a unit has its normal path. -/
theorem held?_ofUnits (units : List FileRecords) (file : String) (line column : Nat) :
    (ofUnits units).held? file line column =
      if unitsOf units file = [] then none else some (loaded units file line column) := by
  have hempty : held? {} file line column = none := by simp [held?]
  rw [ofUnits, held?_foldl_insert, hempty]
  rfl

/-- A file is looked up under its own path first, then under the one it really has. -/
theorem occurrencesAt?_eq (store : Store) (resolve : String → Option String) (file : String)
    (line column : Nat) :
    store.occurrencesAt? resolve file line column =
      (store.held? file line column).or
        ((resolve file).bind fun path => store.held? path line column) := by
  unfold occurrencesAt? positionsIn? held?
  cases store.files[Path.normalize file]? <;> cases resolve file <;> rfl

theorem unitsOf_eq_nil (units : List FileRecords) (file : String) :
    unitsOf units file = [] ↔ ∀ unit ∈ units, Path.normalize unit.file ≠ Path.normalize file := by
  simp [unitsOf]

/-! ## Section 4: Answers -/

/-- A store of units answers what was loaded.  For a file of some unit these
    are the occurrences at the position in the order of the units, whatever
    path the file really has; a file of no unit is looked up under the path
    it really has and is unknown if it has none.  The callee at a position is
    what the first call there links to. -/
theorem ofUnits_answers (units : List FileRecords) (resolve : String → Option String)
    (file : String) (line column : Nat) :
    ((∃ unit ∈ units, Path.normalize unit.file = Path.normalize file) →
      (ofUnits units).occurrencesAt? resolve file line column =
        some (loaded units file line column)) ∧
    (resolve file = none →
      ((ofUnits units).occurrencesAt? resolve file line column = none ↔
        ∀ unit ∈ units, Path.normalize unit.file ≠ Path.normalize file)) ∧
    (∀ path, resolve file = some path →
      (∀ unit ∈ units, Path.normalize unit.file ≠ Path.normalize file) →
      (ofUnits units).occurrencesAt? resolve file line column =
        (ofUnits units).occurrencesAt? (fun _ => none) path line column) ∧
    ((ofUnits units).occurrencesAt? resolve file line column = none →
      (ofUnits units).calleeAt? resolve file line column = none) ∧
    ∀ occurrences, (ofUnits units).occurrencesAt? resolve file line column = some occurrences →
      ∃ callee, (ofUnits units).calleeAt? resolve file line column = some callee ∧
        IsCallee occurrences callee := by
  refine ⟨fun hrecorded => ?_, fun hunresolved => ?_, fun path hresolved hunknown => ?_,
    fun hnone => ?_, fun occurrences hfound => ?_⟩
  · -- The file is recorded under its own name: the resolved path is not looked at.
    have hunits : unitsOf units file ≠ [] := by
      intro hnil
      obtain ⟨unit, hmem, hsame⟩ := hrecorded
      exact (unitsOf_eq_nil units file).mp hnil unit hmem hsame
    rw [occurrencesAt?_eq, held?_ofUnits, if_neg hunits, Option.some_or]
  · rw [occurrencesAt?_eq, hunresolved, held?_ofUnits, ← unitsOf_eq_nil]
    split_ifs with hnil <;> simp [hnil]
  · have hnil := (unitsOf_eq_nil units file).mpr hunknown
    rw [occurrencesAt?_eq, occurrencesAt?_eq, hresolved, held?_ofUnits units file, if_pos hnil]
    simp
  · rw [calleeAt?, hnone, Option.map_none]
  · refine ⟨calleeOf occurrences, ?_, isCallee_calleeOf occurrences⟩
    rw [calleeAt?, hfound, Option.map_some]

/-- Two spellings of a path are one file, and a link leads to it.  A class is
    mentioned and a function is called at the same place. -/
theorem ofUnits_answers_merged :
    let call : Occurrence :=
      { symbol := { kind := .function, name := "f", linkageName := "M.f() -> ()" }
        roles := Roles.reference.union Roles.call
        line := 3
        column := 5 }
    let mention : Occurrence :=
      { symbol := { kind := .classType, name := "C" }
        roles := Roles.reference
        line := 3
        column := 5 }
    let units : List FileRecords :=
      [⟨"src/A.swift", [mention]⟩, ⟨"B.swift", [call]⟩, ⟨"./src/x/../A.swift", [call]⟩]
    let resolve : String → Option String := fun file =>
      if file = "link.swift" then some "src/A.swift" else none
    (ofUnits units).occurrencesAt? resolve "src//A.swift" 3 5 = some [mention, call] ∧
      (ofUnits units).occurrencesAt? resolve "link.swift" 3 5 = some [mention, call] ∧
      (ofUnits units).occurrencesAt? resolve "C.swift" 3 5 = none ∧
      (ofUnits units).calleeAt? resolve "C.swift" 3 5 = none ∧
      ∃ callee, (ofUnits units).calleeAt? resolve "link.swift" 3 5 = some callee ∧
        IsCallee [mention, call] callee := by
  intro call mention units resolve
  have hfound := (ofUnits_answers units resolve "src//A.swift" 3 5).1 (by decide +kernel)
  have hloaded : loaded units "src//A.swift" 3 5 = [mention, call] := by decide +kernel
  rw [hloaded] at hfound
  -- A link is no unit's path, so it is looked up under the path it leads to.
  have hlinked := (ofUnits_answers units resolve "link.swift" 3 5).2.2.1 "src/A.swift" rfl
    (by decide +kernel)
  have hreal := (ofUnits_answers units (fun _ => none) "src/A.swift" 3 5).1 (by decide +kernel)
  have hsame : loaded units "src/A.swift" 3 5 = [mention, call] := by decide +kernel
  rw [hreal, hsame] at hlinked
  have hunknown := ((ofUnits_answers units resolve "C.swift" 3 5).2.1 rfl).mpr (by decide +kernel)
  exact ⟨hfound, hlinked, hunknown,
    (ofUnits_answers units resolve "C.swift" 3 5).2.2.2.1 hunknown,
    (ofUnits_answers units resolve "link.swift" 3 5).2.2.2.2 _ hlinked⟩

end Store

end SelfCapture.Index
