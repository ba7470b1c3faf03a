import CloudifyKubernetes.LastCreatePath

namespace CloudifyKubernetes

open Collections Effects Program

def FileKey (f key : String) : Prop :=
  Text.contains f ".yaml" = false ∧
    (key = f ++ ".yaml" ∨ ∃ i : String, (∀ c ∈ i.toList, c.isDigit = true) ∧ key = f ++ ".yaml" ++ ("#" ++ i))

theorem FileKey.stem {f key : String} (here : FileKey f key) : fileStem key = .ok f := by
  obtain ⟨single, shape⟩ := here
  have extension : ".yaml".toList = '.' :: ['y', 'a', 'm', 'l'] := by decide
  have initial : '.' ∉ ['y', 'a', 'm', 'l'] := by decide
  have pieces (back : String) (behind : '.' ∉ back.toList) :
      Text.split (f ++ ".yaml" ++ back) ".yaml" = [f, back] := Text.split_once extension initial single behind
  rcases shape with rfl | ⟨i, digits, rfl⟩
  · have whole := pieces "" (by decide)
    rw [String.append_empty] at whole
    rw [fileStem, whole]
  · have behind : '.' ∉ ("#" ++ i).toList := by
      rw [String.toList_append, List.mem_append]
      rintro (hash | digit)
      · revert hash
        decide
      · cases digits _ digit
    rw [fileStem, pieces _ behind]

theorem FileKey.unique {f f' key : String} (here : FileKey f key) (there : FileKey f' key) : f = f' :=
  Except.ok.inj (here.stem.symm.trans there.stem)

theorem FileKey.contains {f key : String} (here : FileKey f key) : Text.contains key f = true := by
  rw [Text.contains_iff]
  obtain ⟨_, rfl | ⟨i, _, rfl⟩⟩ := here
  · rw [String.toList_append]
    exact (List.prefix_append _ _).isInfix
  · rw [String.toList_append, String.toList_append, List.append_assoc]
    exact (List.prefix_append _ _).isInfix

def SameFile (key other : String) : Prop := ∃ f, FileKey f key ∧ FileKey f other

/-- What a lookup has found is an entry of the map, with the other resources of its file, and
    the rest of the map is left. -/
structure Partitioned (files : Dict) (found : LastCreatePath) (after : Dict) : Prop where
  entry : files.get? found.path = some found.resource
  adjacent : ∀ e, e ∈ found.adjacent ↔ e ∈ files.items ∧ e.1 ≠ found.path ∧ SameFile e.1 found.path ∧
    agrees e.2 found.resource = false
  once : found.adjacent.Sublist files.items
  kept : ∀ e, e ∈ after.items ↔ e ∈ files.items ∧ e.1 ≠ found.path ∧ e ∉ found.adjacent

/-- A lookup takes the records of one file, all of them and no others, exactly when the stem of
    the file that it settles on is in the name of no other file whose record differs. -/
theorem partitioned_iff {path : String} {s s' : State} {found : LastCreatePath}
    (keys : ∀ key ∈ (recordedFiles s.runtime).keys, ∃ f, FileKey f key)
    (ran : retrieveLastCreatePath path true s = (.ok found, s')) (truthy : found.resource.truthy = true) :
    Partitioned (recordedFiles s.runtime) found (recordedFiles s'.runtime) ↔
      ∀ name resource f, settledFile path s.runtime = .ok (name, resource) → FileKey f name →
        ∀ e ∈ (recordedFiles s.runtime).items, e.1 ≠ name → Text.contains e.1 f = true →
          agrees e.2 resource = false → FileKey f e.1 := by
  obtain ⟨settled, stem, named, adjacent, after⟩ := retrieveLastCreatePath_taken ran truthy
  have entry := settledFile_entry settled truthy
  obtain ⟨f, here⟩ := keys found.path ((OrderedDict.mem_keys_iff _ _).mpr ⟨_, entry⟩)
  obtain rfl : stem = f := Except.ok.inj (named.symm.trans here.stem)
  have taken (e : String × Value) : e ∈ found.adjacent ↔ e ∈ (recordedFiles s.runtime).items ∧
      e.1 ≠ found.path ∧ Text.contains e.1 stem = true ∧ agrees e.2 found.resource = false := by
    rw [adjacent, besides, List.mem_filter, OrderedDict.mem_erase_iff, Bool.and_eq_true, Bool.not_eq_true',
      and_assoc]
  constructor
  · intro partitioned name resource f settled' file e member other inside differs
    cases settled.symm.trans settled'
    obtain rfl := here.unique file
    obtain ⟨_, _, ⟨f, file', own⟩, _⟩ := (partitioned.adjacent e).mp ((taken e).mpr ⟨member, other, inside, differs⟩)
    obtain rfl := here.unique own
    exact file'
  · intro namesake
    refine ⟨entry, fun e => ?_, ?_, fun e => ?_⟩
    · rw [taken]
      constructor
      · rintro ⟨member, other, inside, differs⟩
        exact ⟨member, other, ⟨stem, namesake _ _ _ settled here e member other inside differs, here⟩, differs⟩
      · rintro ⟨member, other, ⟨f, file, own⟩, differs⟩
        obtain rfl := here.unique own
        exact ⟨member, other, file.contains, differs⟩
    · rw [adjacent]
      exact List.filter_sublist.trans List.filter_sublist
    · rw [after, OrderedDict.mem_filter_iff, OrderedDict.mem_erase_iff, decide_eq_true_iff, and_assoc]
      refine and_congr_right fun member => and_congr_right fun _ => not_congr ?_
      constructor
      · intro key
        obtain ⟨other, inside, same⟩ := List.mem_map.mp key
        have here : other ∈ (recordedFiles s.runtime).items := ((taken other).mp inside).1
        rwa [(recordedFiles s.runtime).eq_of_key_eq here member same] at inside
      · exact fun inside => List.mem_map.mpr ⟨e, inside, rfl⟩

open Package

def namesakes : State :=
  { mainNamespace with runtime := { kubernetes := some (OrderedDict.ofEntries
      [("a.yaml#0", response "ConfigMap" "settings"), ("ba.yaml#0", response "Pod" "worker")]) } }

theorem namesakes_keys : ∀ key ∈ (recordedFiles namesakes.runtime).keys, ∃ f, FileKey f key := by
  have keys : (recordedFiles namesakes.runtime).keys = ["a.yaml#0", "ba.yaml#0"] := by decide +kernel
  intro key member
  rw [keys] at member
  have digits : ("0".toList.all fun c => c.isDigit) = true := by decide +kernel
  have digit := List.all_eq_true.mp digits
  rcases List.mem_cons.mp member with rfl | member
  · exact ⟨"a", by decide +kernel, .inr ⟨"0", digit, by decide +kernel⟩⟩
  · rw [List.mem_singleton.mp member]
    exact ⟨"ba", by decide +kernel, .inr ⟨"0", digit, by decide +kernel⟩⟩

theorem namesakes_taken : ∃ found s', retrieveLastCreatePath "a.yaml#0" true namesakes = (.ok found, s') ∧
    found.path = "a.yaml#0" ∧ found.resource.truthy = true ∧ found.adjacent.map Prod.fst = ["ba.yaml#0"] := by
  have taken : returning (fun found _ => found.path == "a.yaml#0" && found.resource.truthy &&
        found.adjacent.map Prod.fst == ["ba.yaml#0"]) (retrieveLastCreatePath "a.yaml#0" true namesakes) = true := by
    decide +kernel
  obtain ⟨found, s', ran, taken⟩ := returning_iff.mp taken
  simp only [Bool.and_eq_true, beq_iff_eq] at taken
  exact ⟨found, s', ran, taken.1.1, taken.1.2, taken.2⟩

theorem namesake_taken : ∃ found s', retrieveLastCreatePath "a.yaml#0" true namesakes = (.ok found, s') ∧
    found.resource.truthy = true ∧
    ¬ Partitioned (recordedFiles namesakes.runtime) found (recordedFiles s'.runtime) := by
  obtain ⟨found, s', ran, path, truthy, adjacent⟩ := namesakes_taken
  refine ⟨found, s', ran, truthy, fun partitioned => ?_⟩
  obtain ⟨e, member, other⟩ : ∃ e ∈ found.adjacent, e.1 = "ba.yaml#0" := by
    rw [← List.mem_map, adjacent]
    exact List.mem_singleton_self _
  obtain ⟨_, _, ⟨f, file, own⟩, _⟩ := (partitioned.adjacent e).mp member
  rw [other] at file
  rw [path] at own
  have stem : fileStem "ba.yaml#0" = fileStem "a.yaml#0" := file.stem.trans own.stem.symm
  have different : fileStem "ba.yaml#0" ≠ fileStem "a.yaml#0" := by decide +kernel
  exact different stem

theorem partitioned_iff_namesakes : ∃ found s',
    retrieveLastCreatePath "a.yaml#0" true namesakes = (.ok found, s') ∧
    (Partitioned (recordedFiles namesakes.runtime) found (recordedFiles s'.runtime) ↔
      ∀ name resource f, settledFile "a.yaml#0" namesakes.runtime = .ok (name, resource) → FileKey f name →
        ∀ e ∈ (recordedFiles namesakes.runtime).items, e.1 ≠ name → Text.contains e.1 f = true →
          agrees e.2 resource = false → FileKey f e.1) := by
  obtain ⟨found, s', ran, _, truthy, _⟩ := namesakes_taken
  exact ⟨found, s', ran, partitioned_iff namesakes_keys ran truthy⟩

end CloudifyKubernetes
