import Handheld.Disk

/-!
Files that are written and read again. A write never takes the place of a directory, so that every
path leads where it has led before. What was written is read there, and any other file is read as
before. A file that can be read can be written at the same place.
-/
namespace Handheld.Disk

variable {d : Disk} {place : Place}

theorem node?_put_of_directory (hfree : d.node? place ≠ some .directory) (node : DiskNode)
    {other : Place} (h : d.node? other = some .directory) :
    (d.put place node).node? other = some .directory := by
  have hne : other ≠ place := by
    rintro rfl
    exact hfree h
  rw [node?_put_of_ne d node hne, h]

theorem ne_root (hfree : d.node? place ≠ some .directory) : place ≠ [] := by
  rintro rfl
  exact hfree rfl

/-- Where a segment leads from a directory. -/
def entered (start : Place) (segment : List Char) : Except FileError Place :=
  if Path.isIdle segment then .ok start
  else if segment = ['.', '.'] then .ok start.dropLast
  else if longestName < (String.ofList segment).utf8ByteSize then .error .nameTooLong
  else .ok (start ++ [String.ofList segment])

/-- A walk goes on from directories only, and which way does not depend on the disk. -/
theorem walk_cons_eq_ok_iff {start target : Place} {segment : List Char}
    {rest : List (List Char)} :
    d.walk start (segment :: rest) = .ok target ↔
      d.node? start = some .directory ∧
        ∃ next, entered start segment = .ok next ∧ d.walk next rest = .ok target := by
  rw [walk, entered]
  cases hnode : d.node? start with
  | none => simp
  | some node =>
    cases node with
    | file content => simp
    | directory =>
      dsimp only
      split
      · simp
      · split
        · simp
        · split <;> simp

/-- A write leads no path elsewhere. -/
theorem walk_put (hfree : d.node? place ≠ some .directory) (node : DiskNode) {start target : Place}
    {segments : List (List Char)} (h : d.walk start segments = .ok target) :
    (d.put place node).walk start segments = .ok target := by
  induction segments generalizing start with
  | nil => exact h
  | cons segment rest ih =>
    obtain ⟨hstart, next, hnext, hrest⟩ := walk_cons_eq_ok_iff.mp h
    exact walk_cons_eq_ok_iff.mpr
      ⟨node?_put_of_directory hfree node hstart, next, hnext, ih hrest⟩

/-- A walk that ends after a slash ends at a directory. -/
theorem directory_of_walk_slash {start target : Place} {segments : List (List Char)}
    (h : d.walk start (segments ++ [[]]) = .ok target) : d.node? target = some .directory := by
  induction segments generalizing start with
  | nil =>
    obtain ⟨hstart, next, hnext, hrest⟩ := walk_cons_eq_ok_iff.mp h
    obtain rfl := Except.ok.inj hnext
    obtain rfl := Except.ok.inj hrest
    exact hstart
  | cons segment rest ih =>
    obtain ⟨-, next, -, hrest⟩ := walk_cons_eq_ok_iff.mp h
    exact ih hrest

variable {path : String}

theorem resolve_eq_ok_iff :
    d.resolve path = .ok place ↔
      ∃ segments, segmentsOf path = .ok segments ∧ d.walk [] segments = .ok place := by
  unfold resolve
  cases segmentsOf path with
  | error e => simp [bind, Except.bind]
  | ok segments => simp [bind, Except.bind]

theorem resolve_put (hfree : d.node? place ≠ some .directory) (node : DiskNode) {target : Place}
    (h : d.resolve path = .ok target) : (d.put place node).resolve path = .ok target := by
  obtain ⟨segments, hsegments, hwalk⟩ := resolve_eq_ok_iff.mp h
  exact resolve_eq_ok_iff.mpr ⟨segments, hsegments, walk_put hfree node hwalk⟩

theorem read_eq_ok_iff {content : ByteArray} :
    d.read path = .ok content ↔
      ∃ place, d.resolve path = .ok place ∧ d.node? place = some (.file content) := by
  unfold read
  cases d.resolve path with
  | error e => simp [bind, Except.bind]
  | ok place =>
    simp only [bind, Except.bind, Except.ok.injEq, exists_eq_left']
    cases d.node? place with
    | none => simp [throw, throwThe, MonadExceptOf.throw]
    | some node => cases node <;> simp [throw, throwThe, MonadExceptOf.throw, pure, Except.pure]

/-- A file is written where its path leads, unless there is a directory. -/
theorem writePlace_eq_ok_iff :
    d.writePlace path = .ok place ↔
      d.resolve path = .ok place ∧ d.node? place ≠ some .directory := by
  unfold writePlace
  rw [resolve_eq_ok_iff]
  cases hsegments : segmentsOf path with
  | error e => simp [bind, Except.bind]
  | ok segments =>
    simp only [bind, Except.bind, Except.ok.injEq, exists_eq_left']
    split
    · next before hback =>
      have hsegments : segments = before.reverse ++ [[]] := by
        rw [← segments.reverse_reverse, hback, List.reverse_cons]
      constructor
      · intro h
        split at h <;> cases h
      · rintro ⟨hwalk, hfree⟩
        exact absurd (directory_of_walk_slash (hsegments ▸ hwalk)) hfree
    · rw [List.reverse_reverse]
      cases hwalk : d.walk [] segments with
      | error e => simp
      | ok target =>
        dsimp only
        split
        · next hdirectory =>
          constructor
          · intro h
            cases h
          · rintro ⟨htarget, hfree⟩
            exact absurd (Except.ok.inj htarget ▸ hdirectory) hfree
        · next hfree =>
          constructor
          · intro h
            obtain rfl := Except.ok.inj h
            exact ⟨rfl, hfree⟩
          · rintro ⟨htarget, -⟩
            exact htarget

/-- What a write does: the file is put where its path leads. -/
theorem write_eq_ok_iff {content : ByteArray} {d' : Disk} :
    d.write path content = .ok d' ↔
      ∃ place, d.resolve path = .ok place ∧ d.node? place ≠ some .directory ∧
        d' = d.put place (.file content) := by
  constructor
  · intro h
    cases hplace : d.writePlace path with
    | error e =>
      rw [write, hplace] at h
      cases h
    | ok place =>
      rw [write, hplace] at h
      obtain ⟨hresolve, hfree⟩ := writePlace_eq_ok_iff.mp hplace
      exact ⟨place, hresolve, hfree, (Except.ok.inj h).symm⟩
  · rintro ⟨place, hresolve, hfree, rfl⟩
    rw [write, writePlace_eq_ok_iff.mpr ⟨hresolve, hfree⟩]
    rfl

/-- A file that was written is read. -/
theorem read_write {content : ByteArray} {d' : Disk} (h : d.write path content = .ok d') :
    d'.read path = .ok content := by
  obtain ⟨place, hresolve, hfree, rfl⟩ := write_eq_ok_iff.mp h
  exact read_eq_ok_iff.mpr
    ⟨place, resolve_put hfree _ hresolve, node?_put d place _ (ne_root hfree)⟩

/-- Another file is read as before. -/
theorem read_of_write {content found : ByteArray} {d' : Disk} {other : String}
    (h : d.write path content = .ok d') (hother : d.read other = .ok found)
    (hne : d.resolve other ≠ d.resolve path) : d'.read other = .ok found := by
  obtain ⟨place, hresolve, hfree, rfl⟩ := write_eq_ok_iff.mp h
  obtain ⟨target, htarget, hfile⟩ := read_eq_ok_iff.mp hother
  have hapart : target ≠ place := by
    rintro rfl
    exact hne (htarget.trans hresolve.symm)
  exact read_eq_ok_iff.mpr
    ⟨target, resolve_put hfree _ htarget, (node?_put_of_ne d _ hapart).trans hfile⟩

/-- A file that is written as it is leaves the disk as it is. -/
theorem node?_of_write_same {content : ByteArray} {d' : Disk} (h : d.write path content = .ok d')
    (hread : d.read path = .ok content) (other : Place) : d'.node? other = d.node? other := by
  obtain ⟨place, hresolve, hfree, rfl⟩ := write_eq_ok_iff.mp h
  obtain ⟨target, htarget, hfile⟩ := read_eq_ok_iff.mp hread
  obtain rfl := Except.ok.inj (htarget.symm.trans hresolve)
  by_cases hother : other = target
  · rw [hother, node?_put d target _ (ne_root hfree), hfile]
  · exact node?_put_of_ne d _ hother

theorem isPresent_of_read {content : ByteArray} (h : d.read path = .ok content) :
    d.isPresent path = true := by
  obtain ⟨place, hresolve, hfile⟩ := read_eq_ok_iff.mp h
  rw [isPresent, hresolve]
  dsimp only
  rw [hfile, Option.isSome_some]

/-- A file that can be read can be written. -/
theorem writePlace_of_read {content : ByteArray} (h : d.read path = .ok content) :
    ∃ place, d.writePlace path = .ok place := by
  obtain ⟨place, hresolve, hfile⟩ := read_eq_ok_iff.mp h
  exact ⟨place, writePlace_eq_ok_iff.mpr ⟨hresolve, by simp [hfile]⟩⟩

end Handheld.Disk
