import GridDispatch.Proofs.Checked
import GridDispatch.Proofs.Text
import GridDispatch.Settings
import GridDispatch.Workflow.Browse

/-!
# Settings that were loaded

Settings are loaded exactly if each of them can be read and they go together
(`Settings.load_eq_ok_iff`). Whatever texts they are loaded from, times that are allowed are not
negative and fit in 64 bits, and limits of a page are crossed nowhere (`Settings.sound_of_load`), so
that every page has a limit, which lies between them (`Settings.Sound.listLimit?_eq`).
-/

namespace GridDispatch

/-! ## Settings -/

theorem readWhole_eq_ok_iff {r : Text.Range} {s : String} {n : Int} (hr : r.lo ≤ 0 ∧ 0 ≤ r.hi) :
    readWhole r s = .ok n ↔ r.Stands s n :=
  mapError_eq_ok_iff.trans (Text.Range.read_trim_eq_ok_iff hr)

theorem readCount_eq_ok_iff {s : String} {n : Nat} :
    readCount s = .ok n ↔ Text.Range.unsigned.Stands s n := by
  rw [← readWhole_eq_ok_iff Text.Range.zero_mem_unsigned]
  refine map_eq_ok_iff.trans ⟨?_, fun h => ⟨n, h, rfl⟩⟩
  rintro ⟨m, hread, rfl⟩
  have hm := Text.Range.has_iff.1 ((readWhole_eq_ok_iff Text.Range.zero_mem_unsigned).1 hread).2
  rwa [Int.toNat_of_nonneg hm.1]

theorem readFlag_eq_ok_iff {s : String} {b : Bool} :
    readFlag s = .ok b ↔ Text.trim s = if b then "true" else "false" := by
  rw [readFlag]
  split
  · rename_i htrue
    rw [htrue]
    cases b with
    | true => exact iff_of_true rfl rfl
    | false => exact iff_of_false nofun (by decide)
  · rename_i htrue
    split
    · rename_i hfalse
      rw [hfalse]
      cases b with
      | true => exact iff_of_false nofun (by decide)
      | false => exact iff_of_true rfl rfl
    · rename_i hfalse
      cases b with
      | true => exact iff_of_false nofun htrue
      | false => exact iff_of_false nofun hfalse

/-- A setting is the default if nothing was written for its key, and else what its text reads as. -/
theorem TextStore.setting_eq_ok_iff {α : Type} {s : TextStore} {key : SettingKey}
    {read : String → Except TextFault α} {default a : α} : s.setting key read default = .ok a ↔
      s.get? key.name = none ∧ a = default ∨
        ∃ text, s.get? key.name = some text ∧ read text = .ok a := by
  rw [setting]
  cases s.get? key.name with
  | none => simp [eq_comm]
  | some text => simp [mapError_eq_ok_iff]

/-- Settings that go together and fit in 64 bits. -/
structure Settings.Sound (c : Settings) : Prop where
  acceptanceWindow : 0 ≤ c.acceptanceWindow ∧ c.acceptanceWindow ≤ Text.Range.signed.hi
  lateAfter : 0 ≤ c.lateAfter ∧ c.lateAfter ≤ Text.Range.signed.hi
  listDefaultLimit : 1 ≤ c.listDefaultLimit ∧ c.listDefaultLimit ≤ c.listMaxLimit
  listMaxLimit : c.listMaxLimit ≤ Text.Range.unsigned.hi

namespace Settings

/-- Each setting of a store is read on its own. -/
theorem typed_eq_ok_iff {s : TextStore} {c : Settings} : typed s = .ok c ↔
    s.setting .acceptanceWindow (readWhole .signed) default.acceptanceWindow =
      .ok c.acceptanceWindow ∧
    s.setting .lateAfter (readWhole .signed) default.lateAfter = .ok c.lateAfter ∧
    s.setting .sweepInterval readCount default.sweepInterval = .ok c.sweepInterval ∧
    s.setting .listDefaultLimit readCount default.listDefaultLimit = .ok c.listDefaultLimit ∧
    s.setting .listMaxLimit readCount default.listMaxLimit = .ok c.listMaxLimit ∧
    s.setting .logLevel .ok default.logLevel = .ok c.logLevel ∧
    s.setting .logJson readFlag default.logJson = .ok c.logJson := by
  constructor
  · intro h
    obtain ⟨acceptanceWindow, hwindow, h⟩ := bind_eq_ok_iff.1 h
    obtain ⟨lateAfter, hlate, h⟩ := bind_eq_ok_iff.1 h
    obtain ⟨sweepInterval, hsweep, h⟩ := bind_eq_ok_iff.1 h
    obtain ⟨listDefaultLimit, hdefault, h⟩ := bind_eq_ok_iff.1 h
    obtain ⟨listMaxLimit, hmax, h⟩ := bind_eq_ok_iff.1 h
    obtain ⟨logLevel, hlevel, h⟩ := bind_eq_ok_iff.1 h
    obtain ⟨logJson, hjson, h⟩ := bind_eq_ok_iff.1 h
    cases h
    exact ⟨hwindow, hlate, hsweep, hdefault, hmax, hlevel, hjson⟩
  · rintro ⟨hwindow, hlate, hsweep, hdefault, hmax, hlevel, hjson⟩
    simp only [typed, hwindow, hlate, hsweep, hdefault, hmax, hlevel, hjson]
    rfl

/-- Times that are not negative go together with a default limit from one up to the most. -/
def Balanced (c : Settings) : Prop :=
  (0 ≤ c.acceptanceWindow ∧ 0 ≤ c.lateAfter) ∧
    1 ≤ c.listDefaultLimit ∧ c.listDefaultLimit ≤ c.listMaxLimit

theorem checked_eq_ok_iff {c c' : Settings} : checked c = .ok c' ↔ c = c' ∧ c.Balanced := by
  rw [checked, Balanced]
  split
  · refine iff_of_false nofun ?_
    omega
  · split
    · refine iff_of_false nofun ?_
      omega
    · constructor
      · intro h
        exact ⟨Except.ok.inj h, by omega⟩
      · rintro ⟨rfl, -⟩
        rfl

theorem load_eq_ok_iff {s : TextStore} {c : Settings} :
    load s = .ok c ↔ typed s = .ok c ∧ c.Balanced := by
  constructor
  · intro h
    obtain ⟨c', htyped, hchecked⟩ := bind_eq_ok_iff.1 h
    obtain ⟨rfl, hbalanced⟩ := checked_eq_ok_iff.1 hchecked
    exact ⟨htyped, hbalanced⟩
  · rintro ⟨htyped, hbalanced⟩
    exact bind_eq_ok_iff.2 ⟨c, htyped, checked_eq_ok_iff.2 ⟨rfl, hbalanced⟩⟩

/-- What is read, or else the default, is in the range. -/
theorem has_of_setting {s : TextStore} {key : SettingKey} {r : Text.Range} {default n : Int}
    (hr : r.lo ≤ 0 ∧ 0 ≤ r.hi) (hdefault : r.has default = true)
    (h : s.setting key (readWhole r) default = .ok n) : r.has n = true := by
  rcases TextStore.setting_eq_ok_iff.1 h with ⟨-, rfl⟩ | ⟨text, -, hread⟩
  · exact hdefault
  · exact ((readWhole_eq_ok_iff hr).1 hread).2

theorem sound_of_load {s : TextStore} {c : Settings} (h : load s = .ok c) : c.Sound := by
  obtain ⟨htyped, ⟨hwindow, hlate⟩, hlimits⟩ := load_eq_ok_iff.1 h
  obtain ⟨hwindow', hlate', -, -, hmax, -, -⟩ := typed_eq_ok_iff.1 htyped
  have hsigned := Text.Range.zero_mem_signed
  refine ⟨⟨hwindow, ?_⟩, ⟨hlate, ?_⟩, hlimits, ?_⟩
  · exact (Text.Range.has_iff.1 (has_of_setting hsigned (by decide) hwindow')).2
  · exact (Text.Range.has_iff.1 (has_of_setting hsigned (by decide) hlate')).2
  · rcases TextStore.setting_eq_ok_iff.1 hmax with ⟨-, hmax⟩ | ⟨text, -, hread⟩
    · rw [hmax]
      decide
    · exact (Text.Range.has_iff.1 (readCount_eq_ok_iff.1 hread).2).2

/-- The number of rows that a page shows at most; none if the limits are crossed. -/
def listLimit (c : Settings) (asked : Option Nat) : Nat := (c.listLimit? asked).getD 0

theorem listLimit_of_listLimit? {c : Settings} {asked : Option Nat} {limit : Nat}
    (h : c.listLimit? asked = some limit) : c.listLimit asked = limit := by
  rw [listLimit, h, Option.getD_some]

namespace Sound

variable {c : Settings}

/-- Limits that were loaded are not crossed, so that every page has a limit. -/
theorem listLimit?_eq (h : c.Sound) (asked : Option Nat) :
    c.listLimit? asked = some (c.listLimit asked) := by
  obtain ⟨hone, hmost⟩ := h.listDefaultLimit
  have hclamp : c.listLimit? asked =
      some (min (max (asked.getD c.listDefaultLimit) 1) c.listMaxLimit) := if_neg (by omega)
  exact hclamp.trans (congrArg some (listLimit_of_listLimit? hclamp).symm)

/-- It lies between one and the most. -/
theorem listLimit_bounds (h : c.Sound) (asked : Option Nat) :
    1 ≤ c.listLimit asked ∧ c.listLimit asked ≤ c.listMaxLimit := by
  obtain ⟨hone, hmost⟩ := h.listDefaultLimit
  have hlimit := h.listLimit?_eq asked
  rw [listLimit?, clamp?, if_neg (by omega), Option.some_inj] at hlimit
  omega

end Sound
end Settings

end GridDispatch
