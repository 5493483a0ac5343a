import TurretPunch.CommandLine.Preparation
import TurretPunch.Proofs.Configuration.Entry
import TurretPunch.Proofs.Configuration.Setting
import TurretPunch.Proofs.Storage.Document

namespace TurretPunch

/-!
# Loading a configuration

What comes of loading a file depends on the JSON value that its text is, if it is one. A fault that is
answered for ends a job with a message, and any other one gets through.
-/

namespace Storage

variable {s : Storage} {path : Path} {text : String} {value : Json} {items : List Json}
  {members : List (Text.Points × Json)}

theorem Holds.unanswered_readJson (h : s.Holds path (Text.encodeUtf8 text)) (document : Document) :
    Unanswered (s.readJson document path) ↔ parsed text = .error .deepNesting := by
  rw [h.readJson_eq]
  cases parsed text with
  | ok value => simp [Except.mapError]
  | error refusal => cases refusal <;> simp [Except.mapError, refusalFault, CommandLine.isAnswered]

/-- A part of a document is used. Nobody answers for a document that is nested too deeply, nor for a
fault in what is done with the part. -/
theorem Holds.unanswered_part {α β : Type} (h : s.Holds path (Text.encodeUtf8 text))
    (document : Document) {part : Json → Except Fault α} {use : α → Except Fault β}
    (hpart : ∀ value, ¬Unanswered (part value)) :
    Unanswered (s.readJson document path >>= part >>= use) ↔ parsed text = .error .deepNesting ∨
      ∃ value a, parsed text = .ok value ∧ part value = .ok a ∧ Unanswered (use a) := by
  simp only [unanswered_bind, h.unanswered_readJson, h.readJson_eq_ok_iff]
  constructor
  · rintro ((hdeep | ⟨value, _, hvalue⟩) | ⟨a, ha, huse⟩)
    · exact Or.inl hdeep
    · exact absurd hvalue (hpart value)
    · obtain ⟨value, hvalue, ha⟩ := ok_of_bind ha
      exact Or.inr ⟨value, a, (h.readJson_eq_ok_iff document).mp hvalue, ha, huse⟩
  · rintro (hdeep | ⟨value, a, hvalue, ha, huse⟩)
    · exact Or.inl (Or.inl hdeep)
    · refine Or.inr ⟨a, ?_, huse⟩
      rw [bind_of_ok _ ((h.readJson_eq_ok_iff document).mpr hvalue), ha]

theorem Holds.unanswered_readTurret (h : s.Holds path (Text.encodeUtf8 text)) :
    Unanswered (s.readTurret path) ↔ parsed text = .error .deepNesting ∨
      ∃ items, parsed text = .ok (.array items) ∧ Unanswered (Turret.ofEntries items) := by
  refine (h.unanswered_part .toolLibrary ?_).trans (or_congr_right ?_)
  · rintro (_ | _ | _ | _ | _ | _ | _) <;> simp [pure, Except.pure, CommandLine.isAnswered]
  · constructor
    · rintro ⟨value, items, hvalue, hitems, hentries⟩
      split at hitems
      · next found =>
        obtain rfl := Except.ok.inj hitems
        exact ⟨found, hvalue, hentries⟩
      · cases hitems
    · rintro ⟨items, hvalue, hentries⟩
      exact ⟨_, items, hvalue, rfl, hentries⟩

theorem Holds.unanswered_readSettings {β : Type} {use : Settings → Except Fault β}
    (h : s.Holds path (Text.encodeUtf8 text)) :
    Unanswered (s.readSettings path >>= use) ↔ parsed text = .error .deepNesting ∨
      ∃ members, parsed text = .ok (.object members) ∧
        Unanswered ((Settings.given members).checked >>= use) := by
  rw [Storage.readSettings, bind_assoc]
  refine (h.unanswered_part .settingsFile ?_).trans (or_congr_right ?_)
  · rintro (_ | _ | _ | _ | _ | _ | _) <;> simp [pure, Except.pure, CommandLine.isAnswered]
  · simp only [Settings.ofMembers_eq]
    constructor
    · rintro ⟨value, members, hvalue, hmembers, huse⟩
      split at hmembers
      · next found =>
        obtain rfl := Except.ok.inj hmembers
        exact ⟨found, hvalue, huse⟩
      · cases hmembers
    · rintro ⟨members, hvalue, huse⟩
      exact ⟨_, members, hvalue, rfl, huse⟩

end Storage

namespace CommandLine

variable {args : Arguments} {desk : Desk} {tools values : Path} {fault : Fault}

/-- A desk where a fault has been told. -/
def Desk.told (desk : Desk) (fault : Fault) : Desk :=
  { desk with printed := desk.printed ++ [.errorLine ("Error: " ++ fault.message)] }

theorem requireAnswered_cases {α : Type} (outcome : Except Fault α) (desk : Desk) :
    (∃ a, outcome = .ok a ∧ (requireAnswered outcome).run.run desk = (.ok a, desk)) ∨
    (∃ fault, isAnswered fault = true ∧
      (requireAnswered outcome).run.run desk = (.error (.exit 1), desk.told fault)) ∨
    Unanswered outcome ∧
      ∃ fault, (requireAnswered outcome).run.run desk = (.error (.fault fault), desk) := by
  cases outcome with
  | ok a => exact Or.inl ⟨a, rfl, rfl⟩
  | error fault =>
      cases h : isAnswered fault with
      | true =>
          refine Or.inr (Or.inl ⟨fault, h, ?_⟩)
          rw [requireAnswered, if_pos h]
          rfl
      | false =>
          refine Or.inr (Or.inr ⟨⟨fault, rfl, h⟩, fault, ?_⟩)
          rw [requireAnswered, if_neg (by simp [h])]
          rfl

theorem run_bind_of_ok {α β : Type} {x : Job α} {a : α} {next : Desk} (f : α → Job β)
    (h : x.run.run desk = (.ok a, next)) : (x >>= f).run.run desk = (f a).run.run next := by
  rw [ExceptT.run_bind, StateT.run_bind, h]
  rfl

theorem run_bind_of_error {α β : Type} {x : Job α} {ending : Ending} {next : Desk} (f : α → Job β)
    (h : x.run.run desk = (.error ending, next)) : (x >>= f).run.run desk = (.error ending, next) := by
  rw [ExceptT.run_bind, StateT.run_bind, h]
  rfl

theorem run_configure (htools : args.tools = some tools) (hvalues : args.settings = some values)
    (desk : Desk) : (configure args).run.run desk =
      (requireAnswered (desk.storage.readTurret tools) >>= fun turret =>
        requireAnswered (desk.storage.readSettings values) >>= fun settings =>
          pure (turret, settings)).run.run desk := by
  rw [configure, htools, hvalues]
  rfl

/-- Makes a session of the files that the arguments name. -/
def setUp (args : Arguments) : Job Session := do
  let (turret, settings) ← configure args
  require (Session.ofSettings turret none settings)

/-- A job that makes a session leaves the desk as it is, or tells why it cannot and exits, or there is
a fault that nobody answers for. -/
theorem setUp_cases (htools : args.tools = some tools) (hvalues : args.settings = some values)
    (desk : Desk) :
    (∃ session, (setUp args).run.run desk = (.ok session, desk)) ∨
    (∃ fault, isAnswered fault = true ∧
      (setUp args).run.run desk = (.error (.exit 1), desk.told fault)) ∨
    (Unanswered (desk.storage.readTurret tools) ∨ ∃ turret,
      Unanswered (desk.storage.readSettings values >>= Session.ofSettings turret none)) ∧
      ∃ fault, (setUp args).run.run desk = (.error (.fault fault), desk) := by
  have hconfigure := run_configure htools hvalues desk
  obtain ⟨turret, hturret, hrun⟩ | ⟨fault, hfault, hrun⟩ | ⟨hunanswered, fault, hrun⟩ :=
    requireAnswered_cases (desk.storage.readTurret tools) desk
  · rw [run_bind_of_ok _ hrun] at hconfigure
    obtain ⟨settings, hsettings, hrun⟩ | ⟨fault, hfault, hrun⟩ | ⟨hunanswered, fault, hrun⟩ :=
      requireAnswered_cases (desk.storage.readSettings values) desk
    · rw [run_bind_of_ok _ hrun] at hconfigure
      have hsetUp := run_bind_of_ok (fun found => require (Session.ofSettings found.1 none found.2))
        hconfigure
      cases hsession : Session.ofSettings turret none settings with
      | ok session =>
          rw [hsession] at hsetUp
          exact Or.inl ⟨session, hsetUp⟩
      | error fault =>
          rw [hsession] at hsetUp
          have hfault := Settings.not_isAnswered_of_ofSettings hsession
          refine Or.inr (Or.inr ⟨Or.inr ⟨turret, fault, ?_, hfault⟩, fault, hsetUp⟩)
          rw [bind_of_ok _ hsettings, hsession]
    · rw [run_bind_of_error _ hrun] at hconfigure
      exact Or.inr (Or.inl ⟨fault, hfault, run_bind_of_error _ hconfigure⟩)
    · rw [run_bind_of_error _ hrun] at hconfigure
      exact Or.inr (Or.inr ⟨Or.inr ⟨turret, unanswered_bind.mpr (Or.inl hunanswered)⟩, fault,
        run_bind_of_error _ hconfigure⟩)
  · rw [run_bind_of_error _ hrun] at hconfigure
    exact Or.inr (Or.inl ⟨fault, hfault, run_bind_of_error _ hconfigure⟩)
  · rw [run_bind_of_error _ hrun] at hconfigure
    exact Or.inr (Or.inr ⟨Or.inl hunanswered, fault, run_bind_of_error _ hconfigure⟩)

end CommandLine

/-- The texts of tables with a fault that nobody answers for: a table is nested too deeply, or its
first entries make a turret and the next one has such a fault. -/
def Turret.IsUnansweredText (text : String) : Prop :=
  Storage.parsed text = .error .deepNesting ∨ ∃ before entry after turret,
    Storage.parsed text = .ok (.array (before ++ entry :: after)) ∧ ofEntries before = .ok turret ∧
      Tool.IsUnanswered entry

/-- The texts of settings with a fault that nobody answers for. -/
def Settings.IsUnansweredText (text : String) : Prop :=
  Storage.parsed text = .error .deepNesting ∨ ∃ members,
    Storage.parsed text = .ok (.object members) ∧ (given members).IsUnanswered

/-- A table or settings are read and a session can be made, or what keeps them from it is answered for,
but for the texts that are told here. Where it is answered for, a job ends with a message and an exit
code. -/
theorem loading_unanswered_iff {s : Storage} {tools values : Path} {toolText valueText : String}
    (htools : s.Holds tools (Text.encodeUtf8 toolText))
    (hvalues : s.Holds values (Text.encodeUtf8 valueText)) :
    (Unanswered (s.readTurret tools) ↔ Turret.IsUnansweredText toolText) ∧
    (∀ turret, Unanswered (s.readSettings values >>= Session.ofSettings turret none) ↔
      Settings.IsUnansweredText valueText) ∧
    ∀ (args : CommandLine.Arguments) (printed : List CommandLine.Printed),
      args.tools = some tools → args.settings = some values →
        (∃ session, (CommandLine.setUp args).run.run ⟨s, printed⟩ = (.ok session, ⟨s, printed⟩)) ∨
        (∃ fault, CommandLine.isAnswered fault = true ∧
          (CommandLine.setUp args).run.run ⟨s, printed⟩ =
            (.error (.exit 1), ⟨s, printed ++ [.errorLine ("Error: " ++ fault.message)]⟩)) ∨
        (Turret.IsUnansweredText toolText ∨ Settings.IsUnansweredText valueText) ∧
          ∃ fault, (CommandLine.setUp args).run.run ⟨s, printed⟩ =
            (.error (.fault fault), ⟨s, printed⟩) := by
  have hturret : Unanswered (s.readTurret tools) ↔ Turret.IsUnansweredText toolText := by
    rw [htools.unanswered_readTurret, Turret.IsUnansweredText]
    simp only [Turret.unanswered_ofEntries]
    refine or_congr_right ⟨?_, ?_⟩
    · rintro ⟨items, hparsed, before, entry, after, turret, rfl, hbefore, hentry⟩
      exact ⟨before, entry, after, turret, hparsed, hbefore, hentry⟩
    · rintro ⟨before, entry, after, turret, hparsed, hbefore, hentry⟩
      exact ⟨_, hparsed, before, entry, after, turret, rfl, hbefore, hentry⟩
  have hsettings (turret : Turret) :
      Unanswered (s.readSettings values >>= Session.ofSettings turret none) ↔
        Settings.IsUnansweredText valueText := by
    rw [hvalues.unanswered_readSettings, Settings.IsUnansweredText]
    simp only [Settings.unanswered_checked]
  refine ⟨hturret, hsettings, fun args printed htoolArg hvalueArg => ?_⟩
  obtain hok | htold | ⟨hunanswered, hfault⟩ := CommandLine.setUp_cases htoolArg hvalueArg ⟨s, printed⟩
  · exact Or.inl hok
  · exact Or.inr (Or.inl htold)
  · simp only [hturret, hsettings] at hunanswered
    exact Or.inr (Or.inr ⟨hunanswered.imp_right fun ⟨_, h⟩ => h, hfault⟩)

theorem loading_unanswered_iff_numbers :
    let table : Json := .array [.int 5]
    let members : List (Text.Points × Json) := [("interval_ms", .int 250), ("log_limit", .float 2.5)]
    let s : Storage := ⟨[(["t.json"], .file (Text.encodeUtf8 (table.write .indented))),
      (["s.json"], .file (Text.encodeUtf8 ((Json.object members).write .indented)))]⟩
    Unanswered (s.readTurret ⟨["t.json"]⟩) ∧
      Unanswered (s.readSettings ⟨["s.json"]⟩ >>= Session.ofSettings .standard none) := by
  intro table members s
  have htools : s.Holds ⟨["t.json"]⟩ (Text.encodeUtf8 (table.write .indented)) := ⟨_, rfl, rfl⟩
  have hvalues : s.Holds ⟨["s.json"]⟩ (Text.encodeUtf8 ((Json.object members).write .indented)) :=
    ⟨_, rfl, rfl⟩
  have htable : Turret.IsUnansweredText (table.write .indented) := by
    have hregular : table.IsRegular := by
      apply Json.IsRegular.array
      rintro item (_ | ⟨_, ⟨⟩⟩)
      exact .int (by decide)
    exact Or.inr ⟨[], .int 5, [], .empty, Storage.parsed_write hregular (by decide), rfl, .whole rfl⟩
  have hsettings : Settings.IsUnansweredText ((Json.object members).write .indented) := by
    have hregular : (Json.object members).IsRegular := by
      apply @Json.IsRegular.record [("interval_ms", .int 250), ("log_limit", .float 2.5)]
      · decide
      · rintro field (_ | ⟨_, _ | ⟨_, ⟨⟩⟩⟩)
        · exact .int (by decide)
        · exact .float (by decide +kernel)
    refine Or.inr ⟨members, Storage.parsed_write hregular (by decide), .room ?_ ?_ ?_⟩
    · with_unfolding_all rfl
    · with_unfolding_all rfl
    · exact Or.inl ⟨2.5, by with_unfolding_all rfl⟩
  obtain ⟨hturret, hsession, _⟩ := loading_unanswered_iff htools hvalues
  exact ⟨hturret.mpr htable, (hsession .standard).mpr hsettings⟩

/-- Nobody answers for a number in the place of a tool. -/
theorem number_for_tool_unanswered :
    let s : Storage := ⟨[(["t.json"], .file (Text.encodeUtf8 "[1]"))]⟩
    s.readTurret ⟨["t.json"]⟩ = .error .wrongType ∧ CommandLine.isAnswered .wrongType = false ∧
      (CommandLine.prepare ["--tools", "t.json", "--list-tools"]).run.run ⟨s, []⟩ =
        (.error (.fault .wrongType), ⟨s, []⟩) := by
  intro s
  refine ⟨?_, rfl, ?_⟩
  · with_unfolding_all rfl
  · with_unfolding_all rfl

end TurretPunch
