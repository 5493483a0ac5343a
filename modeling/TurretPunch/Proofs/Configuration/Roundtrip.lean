import TurretPunch.Proofs.Configuration.Table
import TurretPunch.Proofs.Storage.Document
import TurretPunch.Settings

namespace TurretPunch

/-!
# Reading a configuration that was written

A turret and settings are written as documents that can be read again. What is read are the same
settings, and a turret with the same tools in the same stations.
-/

variable {s : Storage} {path : Path}

theorem Json.itemsReach_le {items : List Json} {bound : Nat}
    (h : ∀ item ∈ items, item.reach ≤ bound) : itemsReach items ≤ bound := by
  induction items with
  | nil => exact Nat.zero_le _
  | cons item items ih =>
      rw [itemsReach]
      exact Nat.max_le.mpr ⟨h item List.mem_cons_self,
        ih fun other hother => h other (List.mem_cons_of_mem _ hother)⟩

namespace Turret

variable {turret : Turret}

/-- The table of a turret. -/
def table (turret : Turret) : Json := .array ((sorted turret.tools).map (·.toJson))

theorem isRegular_table (h : turret.IsRegular) : turret.table.IsRegular := by
  apply Json.IsRegular.array
  intro item hitem
  obtain ⟨t, ht, rfl⟩ := List.mem_map.mp hitem
  exact (h.sorted.tools t ht).toJson

theorem isShallow_table (h : turret.IsRegular) : turret.table.isShallow = true := by
  have hitems : Json.itemsReach ((sorted turret.tools).map (·.toJson)) ≤ 5 := by
    apply Json.itemsReach_le
    intro item hitem
    obtain ⟨t, ht, rfl⟩ := List.mem_map.mp hitem
    exact (h.sorted.tools t ht).reach_toJson.le
  have hreach : turret.table.reach ≤ Json.maxReach := by
    rw [table, Json.reach]
    exact (Nat.add_le_add_right hitems 2).trans (by decide)
  exact decide_eq_true hreach

theorem toJson_of_regular (h : turret.IsRegular) : turret.toJson = .ok turret.table := by
  rw [Turret.toJson, listTools_of_regular h]
  exact if_pos (isShallow_table h)

theorem readTurret_of_regular (h : turret.IsRegular)
    (hheld : s.Holds path (Text.encodeUtf8 (turret.table.write .indented))) :
    s.readTurret path = .ok ⟨sorted turret.tools⟩ := by
  rw [Storage.readTurret, bind_of_ok _ (hheld.readList (isRegular_table h) (isShallow_table h) _)]
  exact ofEntries_of_regular h.sorted

end Turret

namespace Settings

/-- Settings with numbers. -/
structure IsRegular (settings : Settings) : Prop where
  interval : settings.interval.IsRegular
  width : settings.width.IsRegular
  height : settings.height.IsRegular
  logLimit : settings.logLimit.IsRegular
  fallback : settings.fallback.IsRegular

variable {settings : Settings}

theorem toJson_eq (settings : Settings) : settings.toJson = .record
    [("interval_ms", settings.interval.toJson), ("material_width", settings.width.toJson),
      ("material_height", settings.height.toJson), ("log_limit", settings.logLimit.toJson),
      ("fallback_diameter", settings.fallback.toJson)] := rfl

theorem IsRegular.toJson (h : settings.IsRegular) : settings.toJson.IsRegular := by
  rw [toJson_eq]
  refine .record ?_ ?_
  · exact (by decide : names.Nodup)
  · simp only [List.forall_mem_cons]
    exact ⟨h.interval.toJson, h.width.toJson, h.height.toJson, h.logLimit.toJson, h.fallback.toJson,
      nofun⟩

theorem IsRegular.isShallow (h : settings.IsRegular) : settings.toJson.isShallow = true := by
  simp [Settings.toJson, Json.isShallow, Json.reach, Json.membersReach, h.interval.reach_toJson,
    h.width.reach_toJson, h.height.reach_toJson, h.logLimit.reach_toJson, h.fallback.reach_toJson,
    Json.maxReach]

theorem text_of_regular (h : settings.IsRegular) :
    settings.text = .ok (settings.toJson.write .indented) := if_pos h.isShallow

/-- An object with all settings leaves nothing to the defaults. -/
theorem ofMembers_all (interval width height logLimit fallback : Json) :
    ofMembers [("interval_ms", interval), ("material_width", width), ("material_height", height),
        ("log_limit", logLimit), ("fallback_diameter", fallback)] =
      checked ⟨.ofJson interval, .ofJson width, .ofJson height, .ofJson logLimit, .ofJson fallback⟩ := by
  with_unfolding_all rfl

theorem readSettings_of_regular (h : settings.IsRegular)
    (hheld : s.Holds path (Text.encodeUtf8 (settings.toJson.write .indented))) :
    s.readSettings path = settings.checked := by
  rw [Storage.readSettings, bind_of_ok _ (hheld.readObject h.toJson h.isShallow _), ofMembers_all,
    h.interval.ofJson_toJson, h.width.ofJson_toJson, h.height.ofJson_toJson,
    h.logLimit.ofJson_toJson, h.fallback.ofJson_toJson]

end Settings

/-- What was written of a turret and of settings is read as the same tools and settings, and writes
the same again. -/
theorem configuration_rereads {turret : Turret} {settings : Settings} (hturret : turret.IsRegular)
    (hsettings : settings.IsRegular) (hchecked : settings.checked = .ok settings) :
    (∃ tools table, turret.listTools = .ok tools ∧ turret.toJson = .ok table ∧
      ∀ (s : Storage) (path : Path), s.Holds path (Text.encodeUtf8 (table.write .indented)) →
        ∃ again, s.readTurret path = .ok again ∧ again.listTools = .ok tools ∧
          (∀ station, again.get? station = turret.get? station) ∧ again.toJson = .ok table) ∧
    ∃ text, settings.text = .ok text ∧
      ∀ (s : Storage) (path : Path), s.Holds path (Text.encodeUtf8 text) →
        s.readSettings path = .ok settings := by
  constructor
  · refine ⟨_, _, Turret.listTools_of_regular hturret, Turret.toJson_of_regular hturret, ?_⟩
    intro s path hheld
    refine ⟨_, Turret.readTurret_of_regular hturret hheld, ?_, Turret.get?_sorted hturret, ?_⟩
    · rw [Turret.listTools_of_regular hturret.sorted, Turret.sorted_sorted]
    · rw [Turret.toJson_of_regular hturret.sorted, Turret.table, Turret.sorted_sorted]
      rfl
  · refine ⟨_, Settings.text_of_regular hsettings, ?_⟩
    intro s path hheld
    rw [Settings.readSettings_of_regular hsettings hheld, hchecked]

theorem configuration_rereads_unordered :
    let turret : Turret := ⟨[
      ⟨.whole 12, .string "Ø 8 \"\\\n𝄞", .round, .real 8.5, .real 0.0, .whole 0⟩,
      ⟨.whole (-3), .string "", .slot, .whole 7, .real 5.0, .real Decimal.infinity⟩]⟩
    let settings : Settings := { interval := .whole 250, fallback := .real 0.1 }
    turret.IsRegular ∧ settings.IsRegular ∧ settings.checked = .ok settings ∧
      ∃ table text again, turret.toJson = .ok table ∧ settings.text = .ok text ∧
        Storage.readTurret ⟨[(["t.json"], .file (Text.encodeUtf8 (table.write .indented)))]⟩
          ⟨["t.json"]⟩ = .ok again ∧
        again.listTools = turret.listTools ∧ again.get? 12 = turret.get? 12 ∧
        Storage.readSettings ⟨[(["s.json"], .file (Text.encodeUtf8 text))]⟩ ⟨["s.json"]⟩ =
          .ok settings := by
  intro turret settings
  have hfirst : Tool.IsRegular
      ⟨.whole 12, .string "Ø 8 \"\\\n𝄞", .round, .real 8.5, .real 0.0, .whole 0⟩ :=
    ⟨⟨12, rfl, by decide⟩, ⟨_, rfl⟩, .real (by decide +kernel), .real (by decide +kernel),
      .whole (by decide)⟩
  have hsecond : Tool.IsRegular
      ⟨.whole (-3), .string "", .slot, .whole 7, .real 5.0, .real Decimal.infinity⟩ :=
    ⟨⟨-3, rfl, by decide⟩, ⟨_, rfl⟩, .whole (by decide), .real (by decide +kernel),
      .real (by decide +kernel)⟩
  have hturret : turret.IsRegular := by
    refine ⟨?_, by simp [turret]⟩
    rintro t (_ | ⟨_, _ | ⟨_, ⟨⟩⟩⟩)
    · exact hfirst
    · exact hsecond
  have hsettings : settings.IsRegular :=
    ⟨.whole (by decide), .real (by decide +kernel), .real (by decide +kernel), .whole (by decide),
      .real (by decide +kernel)⟩
  have hchecked : settings.checked = .ok settings := by with_unfolding_all rfl
  obtain ⟨⟨tools, table, hlist, htable, hturrets⟩, text, htext, hreads⟩ :=
    configuration_rereads hturret hsettings hchecked
  have htools : Storage.Holds ⟨[(["t.json"], .file (Text.encodeUtf8 (table.write .indented)))]⟩
      ⟨["t.json"]⟩ (Text.encodeUtf8 (table.write .indented)) := ⟨_, rfl, rfl⟩
  have hvalues : Storage.Holds ⟨[(["s.json"], .file (Text.encodeUtf8 text))]⟩ ⟨["s.json"]⟩
      (Text.encodeUtf8 text) := ⟨_, rfl, rfl⟩
  obtain ⟨again, hagain, hsame, hget, _⟩ := hturrets _ _ htools
  exact ⟨hturret, hsettings, hchecked, table, text, again, htable, htext, hagain,
    hsame.trans hlist.symm, hget 12, hreads _ _ hvalues⟩

end TurretPunch
