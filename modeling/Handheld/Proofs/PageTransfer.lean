import Handheld.Proofs.PlainMemory

/-!
Page transfers. A transfer copies bytes upwards one at a time, each through the whole bus, into
the memory that it reads from. No byte that has been copied is read again, from whatever page: the
object table holds what the page read as before the transfer began.
-/
namespace Handheld

namespace Bus

variable {V A : Type} [VideoUnit V] [AudioUnit A] {addr : UInt16} {i n : Nat}

/-- The address from which a transfer of a page copies byte `i`. -/
def pageAt (page : UInt8) (i : Nat) : UInt16 := Word.join page 0 + UInt16.ofNat i

/-- The address to which transfers copy byte `i`. -/
def tableAt (i : Nat) : UInt16 := objectTable + UInt16.ofNat i

/-- The transfer of a page after its first `n` bytes. -/
def copyPage (b : Bus V A) (page : UInt8) (n : Nat) : Bus V A :=
  (List.range n).foldl (fun b i => b.writePlain (tableAt i) (b.read (pageAt page i))) b

/-- The part of the object table that holds the first `n` bytes. -/
def IsCopied (n : Nat) (addr : UInt16) : Prop :=
  objectTable.toNat ≤ addr.toNat ∧ addr.toNat < objectTable.toNat + n

instance (n : Nat) (addr : UInt16) : Decidable (IsCopied n addr) :=
  inferInstanceAs (Decidable (_ ∧ _))

theorem toNat_pageAt (page : UInt8) (hi : i < objectTableSize) :
    (pageAt page i).toNat = 256 * page.toNat + i := by
  have hpage := page.toNat_lt
  have hi : i < 160 := hi
  have hzero : (0 : UInt8).toNat = 0 := rfl
  rw [pageAt, UInt16.toNat_add, UInt16.toNat_ofNat', Word.toNat_join, hzero]
  omega

theorem toNat_tableAt (hi : i < objectTableSize) :
    (tableAt i).toNat = objectTable.toNat + i := by
  have htable : objectTable.toNat = 65024 := rfl
  have hi : i < 160 := hi
  rw [tableAt, UInt16.toNat_add, UInt16.toNat_ofNat', htable]
  omega

theorem eq_tableAt_iff (hi : i < objectTableSize) :
    addr = tableAt i ↔ addr.toNat = objectTable.toNat + i := by
  rw [← UInt16.toNat_inj, toNat_tableAt hi]

theorem isSpare_tableAt (hi : i < objectTableSize) : IsSpare (tableAt i) := by
  have hnat : (tableAt i).toNat = 65024 + i := toNat_tableAt hi
  have hi : i < 160 := hi
  refine .inr (.inl ?_)
  simp only [UInt16.le_iff_toNat_le, UInt16.reduceToNat]
  omega

/-- A byte that is put into the object table is seen at its own address alone. -/
theorem read_writePlain_tableAt (b : Bus V A) (hi : i < objectTableSize) (v : UInt8)
    (addr : UInt16) :
    (b.writePlain (tableAt i) v).read addr = if addr = tableAt i then v else b.read addr := by
  have hnat : (tableAt i).toNat = 65024 + i := toNat_tableAt hi
  have hplain : b.IsPlain (tableAt i) := .inl (isSpare_tableAt hi)
  have hregion : Region.of (tableAt i) ≠ .workRam := by
    rw [Ne, Region.of_eq_workRam_iff]
    omega
  have hecho : echo? (tableAt i) ≠ some addr := by
    rw [Ne, echo?_eq_some_iff]
    omega
  have hwrite : b.writePlain (tableAt i) v = b.write (tableAt i) v := by
    rw [write_of_isCell hplain.isCell, cellAt_of_region hregion]
    rfl
  rw [hwrite, read_write_of_isPlain hplain]
  simp only [hecho, or_false]

theorem copyPage_succ (b : Bus V A) (page : UInt8) (n : Nat) :
    b.copyPage page (n + 1) =
      (b.copyPage page n).writePlain (tableAt n) ((b.copyPage page n).read (pageAt page n)) := by
  rw [copyPage, List.range_succ, List.foldl_append]
  rfl

/-- The next byte to copy is never one of the copied ones. Only in the page of the object table
itself do the two meet, and there each byte is copied onto itself. -/
theorem not_isCopied_pageAt (page : UInt8) (hn : n < objectTableSize) :
    ¬IsCopied n (pageAt page n) := by
  have htable : objectTable.toNat = 65024 := rfl
  have hsize : n < 160 := hn
  rw [IsCopied, toNat_pageAt page hn, htable]
  omega

/-- What is read after the first bytes of a transfer, in terms of the bus before it. -/
theorem read_copyPage (b : Bus V A) (page : UInt8) (hn : n ≤ objectTableSize) (addr : UInt16) :
    (b.copyPage page n).read addr =
      if IsCopied n addr then b.read (pageAt page (addr.toNat - objectTable.toNat))
      else b.read addr := by
  induction n generalizing addr with
  | zero =>
    have hnone : ¬IsCopied 0 addr := fun h => absurd h.2 (Nat.not_lt.mpr h.1)
    rw [if_neg hnone]
    rfl
  | succ n ih =>
    have hlt : n < objectTableSize := hn
    have hbefore := ih (Nat.le_of_lt hlt)
    rw [copyPage_succ, read_writePlain_tableAt _ hlt, hbefore (pageAt page n),
      if_neg (not_isCopied_pageAt page hlt), hbefore addr]
    by_cases hlast : addr = tableAt n
    · have hnat := (eq_tableAt_iff hlt).mp hlast
      have hcopied : IsCopied (n + 1) addr := ⟨by omega, by omega⟩
      rw [if_pos hlast, if_pos hcopied, hnat, Nat.add_sub_cancel_left]
    · rw [if_neg hlast]
      rw [eq_tableAt_iff hlt] at hlast
      have hiff : IsCopied (n + 1) addr ↔ IsCopied n addr := by
        unfold IsCopied
        omega
      simp only [hiff]

theorem transferPage_eq_copyPage (b : Bus V A) (page : UInt8) :
    b.transferPage page = b.copyPage page objectTableSize := rfl

/-- Copying leaves everything but the plain storage as it was. -/
theorem exists_copyPage_eq (b : Bus V A) (page : UInt8) (n : Nat) :
    ∃ storage, b.copyPage page n = { b with storage := storage } := by
  induction n with
  | zero => exact ⟨b.storage, rfl⟩
  | succ n ih =>
    obtain ⟨storage, heq⟩ := ih
    rw [copyPage_succ, heq, writePlain]
    exact ⟨_, rfl⟩

end Bus

namespace Lcd

/-- The register of the page is read at its own address alone. -/
theorem read_dmaPage (v : Lcd) (page : UInt8) (addr : UInt16) :
    ({ v with dmaPage := page } : Lcd).read addr =
      if addr = Bus.dmaRegister then page else v.read addr := by
  by_cases haddr : addr = Bus.dmaRegister
  · rw [if_pos haddr, haddr]
    rfl
  · rw [if_neg haddr]
    unfold Lcd.read
    split
    case h_7 => exact absurd rfl haddr
    all_goals rfl

end Lcd

namespace Bus

variable {A : Type} [AudioUnit A]

/-- The bus with the register of the page written and nothing copied yet. -/
def withPage (b : Bus Lcd A) (page : UInt8) : Bus Lcd A :=
  { b with video := { b.video with dmaPage := page } }

theorem read_withPage (b : Bus Lcd A) (page : UInt8) (addr : UInt16) :
    (b.withPage page).read addr = if addr = dmaRegister then page else b.read addr := by
  have hregister : Region.of dmaRegister = .display := rfl
  by_cases hdisplay : Region.of addr = .display
  · unfold read
    rw [hdisplay]
    exact b.video.read_dmaPage page addr
  · have hne : addr ≠ dmaRegister := fun haddr => hdisplay (haddr ▸ hregister)
    rw [if_neg hne]
    unfold read
    cases hregion : Region.of addr with
    | display => exact absurd hregion hdisplay
    | _ => rfl

theorem write_dmaRegister (b : Bus Lcd A) (page : UInt8) :
    b.write dmaRegister page = (b.withPage page).transferPage page := by
  have hregister : Region.of dmaRegister = .display := rfl
  have hwritten : VideoUnit.write b.video dmaRegister page = { b.video with dmaPage := page } := rfl
  unfold write
  rw [hregister]
  dsimp only [writeVideo]
  rw [if_pos rfl, hwritten]
  rfl

theorem read_write_dmaRegister (b : Bus Lcd A) (page : UInt8) (addr : UInt16) :
    (b.write dmaRegister page).read addr =
      if IsCopied objectTableSize addr then
        (b.withPage page).read (pageAt page (addr.toNat - objectTable.toNat))
      else (b.withPage page).read addr := by
  rw [write_dmaRegister, transferPage_eq_copyPage, read_copyPage _ _ (Nat.le_refl _)]

/-- Only a transfer of the last page copies the register of the page. -/
theorem pageAt_eq_dmaRegister_iff (page : UInt8) (hi : i < objectTableSize) :
    pageAt page i = dmaRegister ↔ page = 0xFF ∧ i = 0x46 := by
  have hsize : i < 160 := hi
  have hregister : dmaRegister.toNat = 0xFF46 := rfl
  have hlast : (0xFF : UInt8).toNat = 0xFF := rfl
  have hlt := page.toNat_lt
  rw [← UInt16.toNat_inj, ← UInt8.toNat_inj, toNat_pageAt page hi, hregister, hlast]
  omega

/-- A write to the register of the page copies an exact snapshot: each byte of the object table
reads as the byte of the page did before the write, through whatever stands there. The register,
which is a byte of the last page, is written before the copy begins. Every other address reads as
before, and besides the register and the plain storage nothing changes, the cycles included. -/
theorem transfer_is_snapshot (b : Bus Lcd A) (page : UInt8) :
    (∀ i < 0xA0, (b.write 0xFF46 page).read (0xFE00 + UInt16.ofNat i) =
      if page = 0xFF ∧ i = 0x46 then page else b.read (UInt16.ofNat (256 * page.toNat + i))) ∧
    (b.write 0xFF46 page).read 0xFF46 = page ∧
    (∀ addr : UInt16, ¬(0xFE00 ≤ addr ∧ addr ≤ 0xFE9F) → addr ≠ 0xFF46 →
      (b.write 0xFF46 page).read addr = b.read addr) ∧
    (b.write 0xFF46 page).cycles = b.cycles ∧
    ∃ storage, b.write 0xFF46 page =
      { b with storage := storage, video := { b.video with dmaPage := page } } := by
  have hregister : (0xFF46 : UInt16) = dmaRegister := rfl
  rw [hregister]
  refine ⟨?table, ?register, ?elsewhere, b.cycles_write _ page, ?rest⟩
  case table =>
    intro i hi
    have hnat : (tableAt i).toNat = objectTable.toNat + i := toNat_tableAt hi
    have hcopied : IsCopied objectTableSize (tableAt i) := by
      rw [IsCopied, hnat]
      exact ⟨Nat.le_add_right _ i, Nat.add_lt_add_left hi _⟩
    have hsource : pageAt page i = UInt16.ofNat (256 * page.toNat + i) := by
      rw [← toNat_pageAt page hi, UInt16.ofNat_toNat]
    change (b.write dmaRegister page).read (tableAt i) = _
    rw [read_write_dmaRegister, if_pos hcopied, hnat, Nat.add_sub_cancel_left, read_withPage,
      ← hsource]
    simp only [pageAt_eq_dmaRegister_iff page hi]
  case register =>
    have hnone : ¬IsCopied objectTableSize dmaRegister := by decide
    rw [read_write_dmaRegister, if_neg hnone, read_withPage, if_pos rfl]
  case elsewhere =>
    intro addr htable hne
    have hnone : ¬IsCopied objectTableSize addr := by
      rintro ⟨hlow, hhigh⟩
      refine htable ⟨UInt16.le_iff_toNat_le.mpr hlow, UInt16.le_iff_toNat_le.mpr ?_⟩
      exact Nat.le_of_lt_succ hhigh
    rw [read_write_dmaRegister, if_neg hnone, read_withPage, if_neg hne]
  case rest =>
    rw [write_dmaRegister, transferPage_eq_copyPage]
    exact (b.withPage page).exists_copyPage_eq page _

/-- From the last page at power-on, the register of the page is copied as it has just been written,
and the register of the interrupt requests as it is read. -/
theorem transfer_is_snapshot_registers :
    (vacant.write 0xFF46 0xFF).read 0xFE46 = 0xFF ∧
      (vacant.write 0xFF46 0xFF).read 0xFE0F = 0xE1 := by
  obtain ⟨htable, -⟩ := vacant.transfer_is_snapshot 0xFF
  have hrequests : vacant.read 0xFF0F = 0xE1 := show (0x01 : UInt8) ||| 0xE0 = 0xE1 by decide
  refine ⟨(htable 0x46 (by decide)).trans (if_pos ⟨rfl, rfl⟩), ?_⟩
  exact (htable 0x0F (by decide)).trans ((if_neg (by decide)).trans hrequests)

end Bus

end Handheld
