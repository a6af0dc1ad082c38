import GridDispatch.Proofs.Settings

/-!
# Settings that were written

Of the texts that were written for a key the last one counts (`TextStore.get?_writeAll_eq_some_iff`),
and the texts of other keys do not matter. Main statement: `Settings.load_writeAll`. After any
writes, settings are loaded exactly if each key stands for its setting and the settings go together;
and settings that are written as texts, in any order and over whatever was there, are loaded again.
-/

namespace GridDispatch

/-- The key was written last with this text. -/
def LastWritten (writes : List (String × String)) (key text : String) : Prop :=
  ∃ before after, writes = before ++ (key, text) :: after ∧ ∀ p ∈ after, p.1 ≠ key

namespace TextStore

variable {s : TextStore} {writes : List (String × String)} {key key' text : String}

/-- Writes in turn, each of a text for a key. -/
def writeAll (s : TextStore) (writes : List (String × String)) : TextStore :=
  writes.foldl (fun s p => s.set p.1 p.2) s

theorem writeAll_append (s : TextStore) (before after : List (String × String)) :
    s.writeAll (before ++ after) = (s.writeAll before).writeAll after :=
  List.foldl_append

theorem find?_filter_self {pairs : List (String × String)} :
    (pairs.filter fun p => p.1 != key).find? (fun p => p.1 == key) = none := by
  refine List.find?_eq_none.2 fun p hp => ?_
  simpa using (List.mem_filter.1 hp).2

theorem find?_filter_ne {pairs : List (String × String)} (h : key' ≠ key) :
    (pairs.filter fun p => p.1 != key).find? (fun p => p.1 == key') =
      pairs.find? fun p => p.1 == key' := by
  rw [List.find?_filter]
  refine congrArg (pairs.find? ·) (funext fun p => ?_)
  by_cases hp : p.1 = key'
  · simp [hp, h]
  · simp [hp]

theorem get?_set (s : TextStore) (key text key' : String) :
    (s.set key text).get? key' = if key' = key then some text else s.get? key' := by
  rw [set, get?, List.find?_append]
  split
  · rename_i heq
    rw [heq, find?_filter_self]
    simp
  · rename_i hne
    rw [find?_filter_ne hne]
    simp [get?, Ne.symm hne]

/-- A key keeps its text as long as others are written. -/
theorem get?_writeAll_of_ne (h : ∀ p ∈ writes, p.1 ≠ key) :
    (s.writeAll writes).get? key = s.get? key := by
  induction writes generalizing s with
  | nil => rfl
  | cons p writes ih =>
    obtain ⟨hp, hwrites⟩ := List.forall_mem_cons.1 h
    change ((s.set p.1 p.2).writeAll writes).get? key = _
    rw [ih hwrites, get?_set, if_neg hp.symm]

theorem get?_writeAll_of_last (h : LastWritten writes key text) :
    (s.writeAll writes).get? key = some text := by
  obtain ⟨before, after, rfl, hafter⟩ := h
  rw [writeAll_append]
  change (((s.writeAll before).set key text).writeAll after).get? key = some text
  rw [get?_writeAll_of_ne hafter, get?_set, if_pos rfl]

theorem get?_writeAll_congr {s' : TextStore} (h : s.get? key = s'.get? key) :
    (s.writeAll writes).get? key = (s'.writeAll writes).get? key := by
  induction writes generalizing s s' with
  | nil => exact h
  | cons p writes ih =>
    have hnext : (s.set p.1 p.2).get? key = (s'.set p.1 p.2).get? key := by
      rw [get?_set, get?_set, h]
    exact ih hnext

end TextStore

/-! ## The last text of a key -/

theorem lastWritten_cases (writes : List (String × String)) (key : String) :
    (∀ p ∈ writes, p.1 ≠ key) ∨ ∃ text, LastWritten writes key text := by
  induction writes with
  | nil => exact .inl (List.forall_mem_nil _)
  | cons p writes ih =>
    rcases ih with hnone | ⟨text, before, after, rfl, hafter⟩
    · by_cases hp : p.1 = key
      · exact .inr ⟨p.2, [], writes, by rw [← hp, List.nil_append], hnone⟩
      · exact .inl (List.forall_mem_cons.2 ⟨hp, hnone⟩)
    · exact .inr ⟨text, p :: before, after, rfl, hafter⟩

/-- Where each key is written once, that is the last time. -/
theorem lastWritten_of_mem {writes : List (String × String)} {key text : String}
    (hnodup : (writes.map Prod.fst).Nodup) (hmem : (key, text) ∈ writes) :
    LastWritten writes key text := by
  obtain ⟨before, after, rfl⟩ := List.append_of_mem hmem
  refine ⟨before, after, rfl, fun p hp hkey => ?_⟩
  rw [List.map_append, List.map_cons] at hnodup
  have hrest := (List.nodup_append.1 hnodup).2.1
  exact (List.nodup_cons.1 hrest).1 (List.mem_map.2 ⟨p, hp, hkey⟩)

namespace TextStore

variable {writes : List (String × String)} {key text : String}

theorem get?_writeAll_eq_none_iff :
    (empty.writeAll writes).get? key = none ↔ ∀ p ∈ writes, p.1 ≠ key := by
  constructor
  · intro h
    rcases lastWritten_cases writes key with hnone | ⟨text, hlast⟩
    · exact hnone
    · rw [get?_writeAll_of_last hlast] at h
      cases h
  · intro h
    exact get?_writeAll_of_ne h

theorem get?_writeAll_eq_some_iff :
    (empty.writeAll writes).get? key = some text ↔ LastWritten writes key text := by
  constructor
  · intro h
    rcases lastWritten_cases writes key with hnone | ⟨text', hlast⟩
    · rw [get?_writeAll_eq_none_iff.2 hnone] at h
      cases h
    · rw [get?_writeAll_of_last hlast] at h
      exact Option.some.inj h ▸ hlast
  · intro h
    exact get?_writeAll_of_last h

end TextStore

/-! ## Settings after writes -/

/-- What a key stands for after writes: the default if it was never written, and else what its last
text reads as. -/
def SettingKey.Stands {α : Type} (key : SettingKey) (writes : List (String × String))
    (reads : String → α → Prop) (default a : α) : Prop :=
  (∀ p ∈ writes, p.1 ≠ key.name) ∧ a = default ∨
    ∃ text, LastWritten writes key.name text ∧ reads text a

theorem TextStore.setting_writeAll_eq_ok_iff {α : Type} {writes : List (String × String)}
    {key : SettingKey} {read : String → Except TextFault α} {reads : String → α → Prop}
    {default a : α} (hreads : ∀ text a, read text = .ok a ↔ reads text a) :
    (empty.writeAll writes).setting key read default = .ok a ↔
      key.Stands writes reads default a := by
  rw [setting_eq_ok_iff, get?_writeAll_eq_none_iff, SettingKey.Stands]
  refine or_congr_right (exists_congr fun text => ?_)
  rw [get?_writeAll_eq_some_iff, hreads]

namespace Settings

/-- Each setting is what its key stands for. Blanks around a text matter for the level of the log
only. -/
structure StandsFor (c : Settings) (writes : List (String × String)) : Prop where
  acceptanceWindow : SettingKey.acceptanceWindow.Stands writes Text.Range.signed.Stands
    default.acceptanceWindow c.acceptanceWindow
  lateAfter : SettingKey.lateAfter.Stands writes Text.Range.signed.Stands default.lateAfter c.lateAfter
  sweepInterval : SettingKey.sweepInterval.Stands writes
    (fun text (n : Nat) => Text.Range.unsigned.Stands text n) default.sweepInterval c.sweepInterval
  listDefaultLimit : SettingKey.listDefaultLimit.Stands writes
    (fun text (n : Nat) => Text.Range.unsigned.Stands text n) default.listDefaultLimit c.listDefaultLimit
  listMaxLimit : SettingKey.listMaxLimit.Stands writes
    (fun text (n : Nat) => Text.Range.unsigned.Stands text n) default.listMaxLimit c.listMaxLimit
  logLevel : SettingKey.logLevel.Stands writes (· = ·) default.logLevel c.logLevel
  logJson : SettingKey.logJson.Stands writes
    (fun text b => Text.trim text = if b then "true" else "false") default.logJson c.logJson

theorem typed_writeAll_eq_ok_iff {writes : List (String × String)} {c : Settings} :
    typed (TextStore.empty.writeAll writes) = .ok c ↔ c.StandsFor writes := by
  have hsigned : ∀ text n, readWhole .signed text = .ok n ↔ Text.Range.signed.Stands text n :=
    fun _ _ => readWhole_eq_ok_iff Text.Range.zero_mem_signed
  have hcount : ∀ text (n : Nat), readCount text = .ok n ↔ Text.Range.unsigned.Stands text n :=
    fun _ _ => readCount_eq_ok_iff
  have hflag : ∀ text b, readFlag text = .ok b ↔ Text.trim text = if b then "true" else "false" :=
    fun _ _ => readFlag_eq_ok_iff
  have hlevel : ∀ text a : String, (.ok text : Except TextFault String) = .ok a ↔ text = a :=
    fun _ _ => ⟨Except.ok.inj, congrArg _⟩
  rw [typed_eq_ok_iff, TextStore.setting_writeAll_eq_ok_iff hsigned,
    TextStore.setting_writeAll_eq_ok_iff hsigned, TextStore.setting_writeAll_eq_ok_iff hcount,
    TextStore.setting_writeAll_eq_ok_iff hcount, TextStore.setting_writeAll_eq_ok_iff hcount,
    TextStore.setting_writeAll_eq_ok_iff hlevel, TextStore.setting_writeAll_eq_ok_iff hflag]
  constructor
  · rintro ⟨hwindow, hlate, hsweep, hdefault, hmax, hlevel, hjson⟩
    exact ⟨hwindow, hlate, hsweep, hdefault, hmax, hlevel, hjson⟩
  · rintro ⟨hwindow, hlate, hsweep, hdefault, hmax, hlevel, hjson⟩
    exact ⟨hwindow, hlate, hsweep, hdefault, hmax, hlevel, hjson⟩

/-- Only the texts of the keys of settings matter. -/
theorem load_congr {s s' : TextStore} (h : ∀ key : SettingKey, s.get? key.name = s'.get? key.name) :
    load s = load s' := by
  simp only [load, typed, TextStore.setting, h]

/-! ## Settings that are written -/

/-- The texts of settings under the names of their keys. -/
def pairs (c : Settings) : List (String × String) := c.texts.map fun p => (p.1.name, p.2)

theorem nodup_pairs (c : Settings) : (c.pairs.map Prod.fst).Nodup := by
  have hkeys : c.pairs.map Prod.fst = [SettingKey.acceptanceWindow, .lateAfter, .sweepInterval,
      .listDefaultLimit, .listMaxLimit, .logLevel, .logJson].map SettingKey.name := rfl
  rw [hkeys]
  decide

theorem setting_of_last {α : Type} {s : TextStore} {writes : List (String × String)}
    {key : SettingKey} {read : String → Except TextFault α} {default a : α} {text : String}
    (hlast : LastWritten writes key.name text) (hread : read text = .ok a) :
    (s.writeAll writes).setting key read default = .ok a :=
  TextStore.setting_eq_ok_iff.2 (.inr ⟨text, TextStore.get?_writeAll_of_last hlast, hread⟩)

theorem readWhole_write {r : Text.Range} {n : Int} (hr : r.lo ≤ 0 ∧ 0 ≤ r.hi)
    (h : r.lo ≤ n ∧ n ≤ r.hi) : readWhole r (Text.write n) = .ok n :=
  (readWhole_eq_ok_iff hr).2 (Text.Range.stands_write (Text.Range.has_iff.2 h))

/-- Settings that are written are loaded again, whatever was there before. -/
theorem load_of_pairs (s : TextStore) {c : Settings} {writes : List (String × String)}
    (hc : c.Sound) (hsweep : c.sweepInterval ≤ Text.Range.unsigned.hi)
    (hwrites : writes.Perm c.pairs) : load (s.writeAll writes) = .ok c := by
  have hnodup : (writes.map Prod.fst).Nodup :=
    (hwrites.map Prod.fst).nodup_iff.2 c.nodup_pairs
  have hlast {key : SettingKey} {text : String} (h : (key, text) ∈ c.texts) :
      LastWritten writes key.name text :=
    lastWritten_of_mem hnodup (hwrites.mem_iff.2 (List.mem_map_of_mem h))
  have hcount {n : Nat} (hn : n ≤ Text.Range.unsigned.hi) : readCount (Text.write n) = .ok n := by
    rw [readCount_eq_ok_iff, ← readWhole_eq_ok_iff Text.Range.zero_mem_unsigned]
    exact readWhole_write Text.Range.zero_mem_unsigned ⟨Int.natCast_nonneg n, hn⟩
  have hsigned {n : Int} (hn : 0 ≤ n ∧ n ≤ Text.Range.signed.hi) :
      readWhole .signed (Text.write n) = .ok n :=
    readWhole_write Text.Range.zero_mem_signed
      ⟨hn.1.trans' Text.Range.zero_mem_signed.1, hn.2⟩
  obtain ⟨hone, hmost⟩ := hc.listDefaultLimit
  rw [load_eq_ok_iff, typed_eq_ok_iff]
  refine ⟨⟨?_, ?_, ?_, ?_, ?_, ?_, ?_⟩, ⟨hc.acceptanceWindow.1, hc.lateAfter.1⟩, hone, hmost⟩
  · exact setting_of_last (hlast (by simp [texts])) (hsigned hc.acceptanceWindow)
  · exact setting_of_last (hlast (by simp [texts])) (hsigned hc.lateAfter)
  · exact setting_of_last (hlast (by simp [texts])) (hcount hsweep)
  · exact setting_of_last (hlast (by simp [texts])) (hcount (by have := hc.listMaxLimit; omega))
  · exact setting_of_last (hlast (by simp [texts])) (hcount hc.listMaxLimit)
  · exact setting_of_last (hlast (by simp [texts])) rfl
  · have hjson : (SettingKey.logJson, if c.logJson then "true" else "false") ∈ c.texts := by
      simp [texts]
    refine setting_of_last (hlast hjson) (readFlag_eq_ok_iff.2 ?_)
    cases c.logJson <;> decide

/-- After any writes, settings are loaded exactly if each of them is what its key stands for and they
go together. A write of another key does not matter, wherever it comes. Settings in the bounds of 64
bits that go together are loaded again after they were written, in any order and over whatever was
there. -/
theorem load_writeAll :
    (∀ (writes : List (String × String)) (c : Settings),
      load (TextStore.empty.writeAll writes) = .ok c ↔ c.StandsFor writes ∧ c.Balanced) ∧
    (∀ (s : TextStore) (before after : List (String × String)) (key text : String),
      (∀ k : SettingKey, k.name ≠ key) →
        load (s.writeAll (before ++ (key, text) :: after)) = load (s.writeAll (before ++ after))) ∧
    ∀ (s : TextStore) (c : Settings) (writes : List (String × String)), c.Sound →
      c.sweepInterval ≤ Text.Range.unsigned.hi → writes.Perm c.pairs →
        load (s.writeAll writes) = .ok c := by
  refine ⟨fun writes c => ?_, fun s before after key text hother => load_congr fun k => ?_,
    fun s c writes hc hsweep hwrites => load_of_pairs s hc hsweep hwrites⟩
  · rw [load_eq_ok_iff, typed_writeAll_eq_ok_iff]
  · rw [TextStore.writeAll_append, TextStore.writeAll_append]
    change ((s.writeAll before).set key text |>.writeAll after).get? k.name = _
    refine TextStore.get?_writeAll_congr ?_
    rw [TextStore.get?_set, if_neg (hother k)]

/-- The greatest settings that there are, written backwards over texts that cannot be read. -/
theorem load_greatest :
    let c : Settings := ⟨9223372036854775807, 0, 18446744073709551615, 18446744073709551615,
      18446744073709551615, " info ", true⟩
    let garbage := TextStore.empty.writeAll [("log_json", "yes"), ("list_max_limit", "-")]
    (c.Sound ∧ c.pairs.reverse.Perm c.pairs) ∧ load (garbage.writeAll c.pairs.reverse) = .ok c := by
  intro c garbage
  have hc : c.Sound := ⟨by decide, by decide, by decide, by decide⟩
  have hwrites : c.pairs.reverse.Perm c.pairs := List.reverse_perm c.pairs
  exact ⟨⟨hc, hwrites⟩, load_writeAll.2.2 garbage c _ hc (by decide) hwrites⟩

end Settings

end GridDispatch
