import Handheld.Proofs.Breakpoints
import Handheld.Proofs.OnDisk
import Handheld.Proofs.SaveLoading
import Mathlib.Data.List.Induction
import Mathlib.Data.List.Nodup
import Mathlib.Logic.Function.Basic

/-!
The breakpoints as a map. Edits are listed with the newest first. Whatever the edits, the entries
are a map from addresses to whether they are enabled, with at most one entry for each address,
and they stand in the order in which their addresses were inserted.
-/
namespace Handheld.Breakpoints

/-- What is done to breakpoints. -/
inductive Edit
  | add (addr : UInt16)
  | remove (addr : UInt16)
  | setEnabled (addr : UInt16) (enabled : Bool)
  | toggle (addr : UInt16)
  | clear
  deriving DecidableEq

/-- What is answered to an edit. -/
inductive Reply
  | flag (b : Bool)
  | state (enabled : Option Bool)
  | done
  deriving DecidableEq

def edit (bs : Breakpoints) : Edit → Breakpoints × Reply
  | .add addr => ((bs.add addr).1, .flag (bs.add addr).2)
  | .remove addr => ((bs.remove addr).1, .flag (bs.remove addr).2)
  | .setEnabled addr enabled =>
    ((bs.setEnabled addr enabled).1, .flag (bs.setEnabled addr enabled).2)
  | .toggle addr => ((bs.toggle addr).1, .state (bs.toggle addr).2)
  | .clear => (bs.clear, .done)

/-- The breakpoints after some edits, the newest first. -/
def edited : List Edit → Breakpoints
  | [] => empty
  | e :: earlier => ((edited earlier).edit e).1

/-- A map from addresses to whether they are enabled. -/
abbrev Marks := UInt16 → Option Bool

/-- The edit of a map. -/
def Marks.edit (m : Marks) : Edit → Marks × Reply
  | .add addr => (Function.update m addr (some true), .flag (m addr).isNone)
  | .remove addr => (Function.update m addr none, .flag (m addr).isSome)
  | .setEnabled addr enabled =>
    (Function.update m addr ((m addr).map fun _ => enabled), .flag (m addr).isSome)
  | .toggle addr => (Function.update m addr ((m addr).map not), .state ((m addr).map not))
  | .clear => (fun _ => none, .done)

/-- The map after some edits. -/
def marks : List Edit → Marks
  | [] => fun _ => none
  | e :: earlier => ((marks earlier).edit e).1

/-- The number of edits before the one that inserted an address, if it was not removed since. Adding
an address that is there does not insert it. -/
def insertedAt? (addr : UInt16) : List Edit → Option Nat
  | [] => none
  | .add a :: earlier =>
    if a = addr then (insertedAt? addr earlier).or (some earlier.length)
    else insertedAt? addr earlier
  | .remove a :: earlier => if a = addr then none else insertedAt? addr earlier
  | .clear :: _ => none
  | .setEnabled _ _ :: earlier => insertedAt? addr earlier
  | .toggle _ :: earlier => insertedAt? addr earlier

/-- Both addresses are there, and the first one was inserted before the other. -/
def InsertedBefore (edits : List Edit) (x y : UInt16) : Prop :=
  ∃ i j, insertedAt? x edits = some i ∧ insertedAt? y edits = some j ∧ i < j

/-- The addresses of the entries, in their order. -/
def addrs (bs : Breakpoints) : List UInt16 := bs.entries.map (·.addr)

theorem contains_eq (bs : Breakpoints) (addr : UInt16) :
    bs.contains addr = (bs.find? addr).isSome := by
  rw [contains, find?, Option.isSome_map, List.isSome_find?]

theorem contains_iff (bs : Breakpoints) (addr : UInt16) :
    bs.contains addr = true ↔ addr ∈ bs.addrs := by
  rw [contains, List.any_eq_true, addrs, List.mem_map]
  simp only [beq_iff_eq]

/-! The addresses of the entries. -/

theorem addrs_modify (bs : Breakpoints) (addr : UInt16) (f : Bool → Bool) :
    (bs.modify addr f).addrs = bs.addrs := by
  rw [addrs, modify, ofEntries, addrs]
  apply List.ext_getElem
  · simp
  · intro i hi _
    rw [List.getElem_map, List.getElem_map, List.getElem_modify]
    split <;> rfl

/-- The addresses after an edit: only an address that is not there is inserted, as the last one. -/
theorem addrs_edit (bs : Breakpoints) (e : Edit) :
    (bs.edit e).1.addrs =
      match e with
      | .add addr => if addr ∈ bs.addrs then bs.addrs else bs.addrs ++ [addr]
      | .remove addr => bs.addrs.erase addr
      | .clear => []
      | _ => bs.addrs := by
  cases e with
  | add addr =>
    by_cases h : addr ∈ bs.addrs
    · rw [edit, Breakpoints.add, if_pos ((bs.contains_iff addr).mpr h), addrs_modify]
      exact (if_pos h).symm
    · rw [edit, Breakpoints.add, if_neg (mt (bs.contains_iff addr).mp h)]
      dsimp only
      rw [if_neg h]
      exact List.map_append
  | remove addr =>
    by_cases h : addr ∈ bs.addrs
    · rw [edit, Breakpoints.remove, if_pos ((bs.contains_iff addr).mpr h)]
      dsimp only
      rw [addrs, addrs, ofEntries, List.erase_eq_eraseP', List.eraseP_map]
      rfl
    · rw [edit, Breakpoints.remove, if_neg (mt (bs.contains_iff addr).mp h)]
      exact (List.erase_of_not_mem h).symm
  | setEnabled addr enabled =>
    rw [edit, Breakpoints.setEnabled]
    split
    · exact bs.addrs_modify addr _
    · rfl
  | toggle addr =>
    rw [edit, Breakpoints.toggle]
    split
    · exact bs.addrs_modify addr _
    · rfl
  | clear => rfl

theorem nodup_addrs (edits : List Edit) : (edited edits).addrs.Nodup := by
  induction edits with
  | nil => exact List.nodup_nil
  | cons e earlier ih =>
    rw [edited, addrs_edit]
    cases e with
    | add addr =>
      dsimp only
      split
      · exact ih
      · next hnew =>
        rw [← List.concat_eq_append]
        exact ih.concat hnew
    | remove addr => exact ih.erase addr
    | clear => exact List.nodup_nil
    | setEnabled addr enabled => exact ih
    | toggle addr => exact ih

/-! What the operations do to the map. -/

/-- Only the first entry at an address is changed. -/
theorem modify_cons (b : Breakpoint) (rest : List Breakpoint) (addr : UInt16)
    (f : Breakpoint → Breakpoint) :
    (b :: rest).modify ((b :: rest).findIdx (·.addr == addr)) f =
      if b.addr = addr then f b :: rest
      else b :: rest.modify (rest.findIdx (·.addr == addr)) f := by
  rw [List.findIdx_cons]
  by_cases h : b.addr = addr
  · rw [beq_iff_eq.mpr h, if_pos h]
    exact List.modify_zero_cons f b rest
  · rw [beq_eq_false_iff_ne.mpr h, if_neg h]
    exact List.modify_succ_cons f b rest _

/-- The entry that is changed is the one that is found. -/
theorem find?_modify (bs : Breakpoints) (addr : UInt16) (f : Bool → Bool) :
    (bs.modify addr f).find? = Function.update bs.find? addr ((bs.find? addr).map f) := by
  funext a
  obtain ⟨entries, anyEnabled⟩ := bs
  rw [Function.update_apply]
  simp only [find?, modify, ofEntries]
  induction entries with
  | nil => simp
  | cons b rest ih =>
    rw [modify_cons]
    by_cases hb : b.addr = addr
    · by_cases ha : a = addr
      · simp [hb, ha]
      · simp [hb, ha, Ne.symm ha]
    · by_cases ha : b.addr = a
      · have hne : a ≠ addr := ha ▸ hb
        simp [ha, hne]
      · simpa [hb, ha] using ih

theorem find?_append (bs : Breakpoints) {addr : UInt16} (h : bs.find? addr = none) :
    (ofEntries (bs.entries ++ [⟨addr, true⟩])).find? =
      Function.update bs.find? addr (some true) := by
  funext a
  rw [find?, ofEntries, List.find?_append, Function.update_apply]
  by_cases ha : a = addr
  · subst ha
    have hnone : bs.entries.find? (·.addr == a) = none := by simpa [find?] using h
    simp [hnone]
  · have hother : ([⟨addr, true⟩] : List Breakpoint).find? (·.addr == a) = none := by
      simp [Ne.symm ha]
    rw [hother, Option.or_none, if_neg ha, find?]

/-- With one entry for each address none is left where the first one is removed. -/
theorem find?_eraseP {bs : Breakpoints} (h : bs.addrs.Nodup) (addr : UInt16) :
    (ofEntries (bs.entries.eraseP (·.addr == addr))).find? =
      Function.update bs.find? addr none := by
  funext a
  obtain ⟨entries, anyEnabled⟩ := bs
  rw [Function.update_apply]
  simp only [find?, ofEntries]
  induction entries with
  | nil => simp
  | cons b rest ih =>
    obtain ⟨hnotMem, hrest⟩ := List.nodup_cons.mp h
    by_cases hb : b.addr = addr
    · subst hb
      by_cases ha : a = b.addr
      · subst ha
        have hnone : rest.find? (·.addr == b.addr) = none := by
          refine List.find?_eq_none.mpr fun b' hb' heq => hnotMem ?_
          exact List.mem_map.mpr ⟨b', hb', beq_iff_eq.mp heq⟩
        simp [hnone]
      · simp [ha, Ne.symm ha]
    · by_cases ha : b.addr = a
      · have hne : a ≠ addr := ha ▸ hb
        simp [ha, hne]
      · simpa [hb, ha] using ih hrest

theorem update_find?_none {bs : Breakpoints} {addr : UInt16} (h : bs.find? addr = none) :
    Function.update bs.find? addr none = bs.find? := by
  rw [← h, Function.update_eq_self]

/-- An edit does to the breakpoints what it does to their map, and its answer is that of the map. -/
theorem edit_eq {bs : Breakpoints} (hnodup : bs.addrs.Nodup) (e : Edit) :
    ((bs.edit e).1.find?, (bs.edit e).2) = Marks.edit bs.find? e := by
  cases e with
  | add addr =>
    simp only [edit, Marks.edit, Breakpoints.add, contains_eq]
    cases h : bs.find? addr with
    | none => simp [find?_append bs h]
    | some enabled => simp [find?_modify, h]
  | remove addr =>
    simp only [edit, Marks.edit, Breakpoints.remove, contains_eq]
    cases h : bs.find? addr with
    | none =>
      simp [update_find?_none h]
    | some enabled => simp [find?_eraseP hnodup]
  | setEnabled addr enabled =>
    simp only [edit, Marks.edit, Breakpoints.setEnabled, contains_eq]
    cases h : bs.find? addr with
    | none =>
      simp [update_find?_none h]
    | some before => simp [find?_modify, h]
  | toggle addr =>
    simp only [edit, Marks.edit, Breakpoints.toggle]
    cases h : bs.find? addr with
    | none =>
      simp [update_find?_none h]
    | some enabled => simp [find?_modify, h]
  | clear => rfl

theorem find?_edited (edits : List Edit) : (edited edits).find? = marks edits := by
  induction edits with
  | nil => rfl
  | cons e earlier ih =>
    have hedit := congrArg Prod.fst (edit_eq (nodup_addrs earlier) e)
    rwa [ih] at hedit

/-! The order of the entries. -/

theorem insertedAt?_lt {addr : UInt16} {edits : List Edit} {i : Nat}
    (h : insertedAt? addr edits = some i) : i < edits.length := by
  induction edits with
  | nil => cases h
  | cons e earlier ih =>
    rw [List.length_cons]
    cases e with
    | add a =>
      rw [insertedAt?] at h
      split at h
      · rcases Option.or_eq_some_iff.mp h with h | ⟨-, h⟩
        · have := ih h
          omega
        · cases h
          omega
      · have := ih h
        omega
    | remove a =>
      rw [insertedAt?] at h
      split at h
      · cases h
      · have := ih h
        omega
    | setEnabled a enabled =>
      have := ih h
      omega
    | toggle a =>
      have := ih h
      omega
    | clear => cases h

/-- An address was inserted exactly if the map has it. -/
theorem isSome_insertedAt? (addr : UInt16) (edits : List Edit) :
    (insertedAt? addr edits).isSome = (marks edits addr).isSome := by
  induction edits with
  | nil => rfl
  | cons e earlier ih =>
    cases e with
    | add a =>
      by_cases h : a = addr
      · subst h
        simp [insertedAt?, marks, Marks.edit]
      · simp [insertedAt?, marks, Marks.edit, h, Function.update_of_ne (Ne.symm h), ih]
    | remove a =>
      by_cases h : a = addr
      · subst h
        simp [insertedAt?, marks, Marks.edit]
      · simp [insertedAt?, marks, Marks.edit, h, Function.update_of_ne (Ne.symm h), ih]
    | setEnabled a enabled =>
      by_cases h : addr = a
      · subst h
        simp [insertedAt?, marks, Marks.edit, ih]
      · simp [insertedAt?, marks, Marks.edit, Function.update_of_ne h, ih]
    | toggle a =>
      by_cases h : addr = a
      · subst h
        simp [insertedAt?, marks, Marks.edit, ih]
      · simp [insertedAt?, marks, Marks.edit, Function.update_of_ne h, ih]
    | clear => rfl

theorem exists_insertedAt? {addr : UInt16} {edits : List Edit}
    (h : addr ∈ (edited edits).addrs) : ∃ i, insertedAt? addr edits = some i := by
  apply Option.isSome_iff_exists.mp
  rw [isSome_insertedAt?, ← find?_edited, ← contains_eq]
  exact ((edited edits).contains_iff addr).mpr h

/-- An edit that leaves two addresses where they are leaves them in their order. -/
theorem InsertedBefore.cons {edits : List Edit} {x y : UInt16} (h : InsertedBefore edits x y)
    {e : Edit} (hx : ∀ i, insertedAt? x edits = some i → insertedAt? x (e :: edits) = some i)
    (hy : ∀ i, insertedAt? y edits = some i → insertedAt? y (e :: edits) = some i) :
    InsertedBefore (e :: edits) x y := by
  obtain ⟨i, j, hi, hj, hlt⟩ := h
  exact ⟨i, j, hx i hi, hy j hj, hlt⟩

theorem insertedAt?_add {addr a : UInt16} {edits : List Edit} {i : Nat}
    (h : insertedAt? addr edits = some i) : insertedAt? addr (.add a :: edits) = some i := by
  rw [insertedAt?]
  split
  · rw [h, Option.some_or]
  · exact h

/-- The entries stand in the order in which their addresses were inserted. -/
theorem inOrder_edited (edits : List Edit) :
    (edited edits).addrs.Pairwise (InsertedBefore edits) := by
  induction edits with
  | nil => exact List.Pairwise.nil
  | cons e earlier ih =>
    rw [edited, addrs_edit]
    cases e with
    | add addr =>
      have hkept : (edited earlier).addrs.Pairwise (InsertedBefore (.add addr :: earlier)) :=
        ih.imp fun h => h.cons (fun i => insertedAt?_add) (fun i => insertedAt?_add)
      dsimp only
      split
      · exact hkept
      · next hnew =>
        refine List.pairwise_append.mpr ⟨hkept, List.pairwise_singleton _ _, ?_⟩
        intro x hx y hy
        obtain rfl := List.mem_singleton.mp hy
        obtain ⟨i, hi⟩ := exists_insertedAt? hx
        refine ⟨i, earlier.length, insertedAt?_add hi, ?_, insertedAt?_lt hi⟩
        have hnone : insertedAt? y earlier = none := by
          rw [← contains_iff, contains_eq, find?_edited, ← isSome_insertedAt?] at hnew
          simpa using hnew
        rw [insertedAt?, if_pos rfl, hnone, Option.none_or]
    | remove addr =>
      have hother {x : UInt16} (hx : x ∈ (edited earlier).addrs.erase addr) (i : Nat)
          (hi : insertedAt? x earlier = some i) :
          insertedAt? x (.remove addr :: earlier) = some i := by
        have hne := ((nodup_addrs earlier).mem_erase_iff.mp hx).1
        rw [insertedAt?, if_neg (Ne.symm hne)]
        exact hi
      exact (ih.sublist List.erase_sublist).imp_of_mem fun hx hy h =>
        h.cons (hother hx) (hother hy)
    | setEnabled addr enabled => exact ih
    | toggle addr => exact ih
    | clear => exact List.Pairwise.nil

/-! The fast path. -/

theorem reachable_edited (edits : List Edit) : (edited edits).Reachable := by
  induction edits with
  | nil => exact .empty
  | cons e earlier ih =>
    cases e with
    | add addr => exact ih.add addr
    | remove addr => exact ih.remove addr
    | setEnabled addr enabled => exact ih.setEnabled addr enabled
    | toggle addr => exact ih.toggle addr
    | clear => exact .empty

theorem isEnabledAt_iff {bs : Breakpoints} (h : bs.addrs.Nodup) (addr : UInt16) :
    bs.isEnabledAt addr = true ↔ bs.find? addr = some true := by
  rw [isEnabledAt, List.any_eq_true, find?, Option.map_eq_some_iff]
  simp only [Bool.and_eq_true, beq_iff_eq]
  constructor
  · rintro ⟨b, hb, henabled, haddr⟩
    obtain ⟨b', hb'⟩ : ∃ b', bs.entries.find? (·.addr == addr) = some b' := by
      apply Option.isSome_iff_exists.mp
      exact List.find?_isSome.mpr ⟨b, hb, by simpa using haddr⟩
    have haddr' : b'.addr = addr := by simpa using List.find?_some hb'
    have hsame : b' = b := List.inj_on_of_nodup_map h (List.mem_of_find?_eq_some hb') hb
      (haddr'.trans haddr.symm)
    exact ⟨b', hb', hsame ▸ henabled⟩
  · rintro ⟨b, hb, henabled⟩
    exact ⟨b, List.mem_of_find?_eq_some hb, henabled, by simpa using List.find?_some hb⟩

/-! The entries by address. -/

theorem sorted_perm (bs : Breakpoints) : bs.sorted.Perm bs.entries := List.mergeSort_perm _ _

/-- With one entry for each address, the sorted addresses increase. -/
theorem increasing_sorted {bs : Breakpoints} (h : bs.addrs.Nodup) :
    bs.sorted.Pairwise fun x y => x.addr < y.addr := by
  have hle : bs.sorted.Pairwise fun x y => decide (x.addr ≤ y.addr) = true := by
    apply List.pairwise_mergeSort
    · intro x y z hxy hyz
      simp only [decide_eq_true_eq] at hxy hyz ⊢
      exact UInt16.le_trans hxy hyz
    · intro x y
      simp only [Bool.or_eq_true, decide_eq_true_eq]
      exact UInt16.le_total x.addr y.addr
  have hne : bs.sorted.Pairwise fun x y => x.addr ≠ y.addr :=
    List.pairwise_map.mp ((bs.sorted_perm.map _).nodup_iff.mpr h)
  apply hle.imp₂ _ hne
  intro x y hxy hxy'
  exact UInt16.lt_of_le_of_ne (of_decide_eq_true hxy) hxy'

/-! Adding a list of addresses. -/

theorem addAll_concat (bs : Breakpoints) (addrs : List UInt16) (addr : UInt16) :
    bs.addAll (addrs ++ [addr]) = ((bs.addAll addrs).add addr).1 := by
  rw [addAll, List.foldl_append]
  rfl

/-- Enabling an entry changes nothing where all of them are enabled. -/
theorem modify_of_enabled {bs : Breakpoints} (addr : UInt16) (h : ∀ b ∈ bs.entries, b.enabled) :
    (bs.modify addr fun _ => true).entries = bs.entries := by
  apply List.ext_getElem
  · simp [modify, ofEntries]
  · intro i _ hi
    simp only [modify, ofEntries]
    rw [List.getElem_modify]
    split
    · exact Breakpoint.ext rfl (h _ (List.getElem_mem hi)).symm
    · rfl

/-- Each address is there once and enabled, in the order of the first occurrences. -/
theorem entries_addAll (addrs : List UInt16) :
    (empty.addAll addrs).entries = addrs.eraseDups.map fun addr => ⟨addr, true⟩ := by
  induction addrs using List.reverseRecOn with
  | nil => rfl
  | append_singleton addrs addr ih =>
    have hmem : (empty.addAll addrs).contains addr = true ↔ addr ∈ addrs := by
      rw [contains, ih, List.any_map, List.any_eq_true]
      simp
    rw [addAll_concat, Breakpoints.add, List.eraseDups_append]
    by_cases h : addr ∈ addrs
    · rw [if_pos (hmem.mpr h), modify_of_enabled, ih]
      · simp [List.removeAll, h]
      · rw [ih]
        simp
    · rw [if_neg (mt hmem.mp h), ofEntries, ih]
      simp [List.removeAll, h, List.eraseDups_cons]

end Handheld.Breakpoints

namespace Handheld.Session

variable {d : Disk} {s : Session}

theorem breakpoints_restored {c c' : Console} {path : String} (h : restored d c path = .ok c') :
    c'.breakpoints = c.breakpoints := by
  unfold restored at h
  split at h
  · cases hread : d.read path with
    | error e =>
      rw [hread] at h
      cases h
    | ok data =>
      rw [hread] at h
      dsimp only at h
      cases hload : c.load data with
      | error e =>
        rw [hload] at h
        cases h
      | ok loaded =>
        rw [hload] at h
        obtain rfl := Except.ok.inj h
        rcases Console.eq_or_holding_of_load hload with rfl | ⟨cartridge, rfl⟩
        · rfl
        · rfl
  · obtain rfl := Except.ok.inj h
    rfl

/-- A session is opened with the breakpoints of its settings added one after the other. -/
theorem breakpoints_opened {romPath : String} {cfg : RunConfig} {saveOverride : Option String}
    {host : HostClock} (h : opened d romPath cfg saveOverride host = .ok s) :
    s.console.breakpoints = Breakpoints.empty.addAll cfg.breakpoints := by
  unfold opened at h
  cases hrom : d.read romPath with
  | error e =>
    rw [hrom] at h
    cases h
  | ok rom =>
    rw [hrom] at h
    dsimp only at h
    cases hpath : savePathOf cfg saveOverride romPath rom with
    | none =>
      rw [hpath] at h
      obtain rfl := Except.ok.inj h
      rfl
    | some path =>
      rw [hpath] at h
      dsimp only at h
      cases hrestored : restored d (consoleOf cfg rom host) path with
      | error e =>
        rw [hrestored] at h
        cases h
      | ok console =>
        rw [hrestored] at h
        obtain rfl := Except.ok.inj h
        exact breakpoints_restored hrestored

end Handheld.Session

namespace Handheld.Breakpoints

/-- The breakpoints after some edits are a map with an order. -/
structure IsMap (edits : List Edit) (bs : Breakpoints) : Prop where
  find?_eq : ∀ addr, bs.find? addr = marks edits addr
  /-- The next edit does to the map, and answers, what it does to and answers for the map alone. -/
  effect_eq : ∀ e addr, (bs.edit e).1.find? addr = ((marks edits).edit e).1 addr
  reply_eq : ∀ e, (bs.edit e).2 = ((marks edits).edit e).2
  nodup : (bs.entries.map (·.addr)).Nodup
  inOrder : (bs.entries.map (·.addr)).Pairwise (InsertedBefore edits)
  anyEnabled_iff : bs.anyEnabled = true ↔ ∃ b ∈ bs.entries, b.enabled = true
  isHit_iff : ∀ pc, bs.isHit pc = true ↔ marks edits pc = some true
  sorted_perm : bs.sorted.Perm bs.entries
  increasing : bs.sorted.Pairwise fun x y => x.addr < y.addr

theorem isMap_edited (edits : List Edit) : IsMap edits (edited edits) where
  find?_eq addr := congrFun (find?_edited edits) addr
  effect_eq e addr := by
    have hedit := congrArg Prod.fst (edit_eq (nodup_addrs edits) e)
    rw [find?_edited] at hedit
    exact congrFun hedit addr
  reply_eq e := by
    have hedit := congrArg Prod.snd (edit_eq (nodup_addrs edits) e)
    rwa [find?_edited] at hedit
  nodup := nodup_addrs edits
  inOrder := inOrder_edited edits
  anyEnabled_iff := by
    rw [(reachable_edited edits).anyEnabled_eq, List.any_eq_true]
  isHit_iff pc := by
    rw [(reachable_edited edits).isHit_eq, isEnabledAt_iff (nodup_addrs edits), find?_edited]
  sorted_perm := (edited edits).sorted_perm
  increasing := increasing_sorted (nodup_addrs edits)

/-- After any edits the breakpoints are a finite map in insertion order, with a flag that never
hides an enabled entry. So a list of addresses is added with each address once, and a session opens
with the breakpoints of its settings in the order of their first occurrences. -/
theorem edits_as_on_map :
    (∀ edits : List Edit, IsMap edits (edited edits)) ∧
    (∀ addrs : List UInt16,
      (empty.addAll addrs).entries = addrs.eraseDups.map fun addr => ⟨addr, true⟩) ∧
    ∀ (d : Disk) (romPath : String) (cfg : RunConfig) (saveOverride : Option String)
      (host : HostClock) (s : Session),
      (Session.onDisk (Session.openRom romPath cfg saveOverride host) d).1 = .ok s →
      s.console.breakpoints.entries = cfg.breakpoints.eraseDups.map fun addr => ⟨addr, true⟩ := by
  refine ⟨isMap_edited, entries_addAll, fun d romPath cfg saveOverride host s hopen => ?_⟩
  rw [Session.onDisk_openRom] at hopen
  rw [Session.breakpoints_opened hopen]
  exact entries_addAll cfg.breakpoints

/-- A disk with an empty ROM. -/
def emptyRomDisk : Disk := ⟨[(["game.gb"], .file .empty)]⟩

/-- Settings that name a breakpoint twice. -/
def repeatedSettings : RunConfig :=
  { RunConfig.standard with breakpoints := [0x0150, 0x0100, 0x0150] }

theorem edits_as_on_map_repeated :
    ∃ s, (Session.onDisk (Session.openRom "game.gb" repeatedSettings none (.fixed 0))
        emptyRomDisk).1 = .ok s ∧
      s.console.breakpoints.entries = [⟨0x0150, true⟩, ⟨0x0100, true⟩] := by
  have hrom : emptyRomDisk.read "game.gb" = .ok .empty :=
    Disk.read_eq_ok_iff.mpr ⟨["game.gb"], by decide +kernel, rfl⟩
  have hopen : (Session.onDisk (Session.openRom "game.gb" repeatedSettings none (.fixed 0))
      emptyRomDisk).1 = .ok ⟨Session.consoleOf repeatedSettings .empty (.fixed 0), none⟩ := by
    rw [Session.onDisk_openRom, Session.opened_of_no_battery hrom (by decide +kernel)]
  exact ⟨_, hopen, edits_as_on_map.2.2 _ _ _ _ _ _ hopen⟩

/-- An entry that is removed and added again moves to the end. -/
example : (edited [.add 0x0150, .remove 0x0150, .toggle 0x0150, .add 0x0100, .add 0x0150]).addrs =
    [0x0100, 0x0150] := by decide

end Handheld.Breakpoints
