/-
# The manifest of an export (`api/routers/recovery.py`, the end of `recovery_export`)

Once the bundle is made, its files are hashed one by one, the hashes are written beside them in a
manifest, and the hash of the manifest goes into the audit log and the response.  Whoever receives
the bundle can hash again (`Intact`).  A manifest and files that pass are the ones that were made,
byte for byte, as far as the hash tells the texts apart; and what was made is the history of the
device up to the target (`exported_evidence_is_pinned`).
-/
import AegisShield.Engine.Export

namespace AegisShield.Api

open Lib

/-! ## 1. The manifest -/

/-- The files of a bundle. -/
def bundleFiles (d : Dir) : Dict Bytes :=
  d.torn.foldl (fun files t => Dict.set s!"journal.jsonl.torn-{t.1}" t.2 files)
    [("base.img", d.base), ("journal.jsonl", d.log), ("metadata.json", d.metadata)]

/-- The hashes of files. -/
def fileHashes (R : Runtime) (files : Dict Bytes) : Dict R.Value :=
  files.map fun f => (f.1, .str (R.hexdigest f.2))

/-- `manifest`. -/
def manifest (R : Runtime) (deviceId : String) (exportedAtNs : Nat) (files : Dict Bytes)
    (snapshotName : String) (targetSequence : Int) : Dict R.Value :=
  [("device_id", .str deviceId), ("exported_at_ns", .int exportedAtNs),
    ("files", .obj (fileHashes R files)), ("snapshot_name", .str snapshotName),
    ("target_sequence", .int targetSequence)]

/-- `json.dumps(manifest, sort_keys=True, indent=2).encode("utf-8")`. -/
def manifestBytes {R : Runtime} (m : Dict R.Value) : Bytes := utf8 (Json.obj m).pretty

variable {W : World}

/-- The end of `recovery_export`, once the bundle is open: the manifest, and the audit entry for it.
The bundle is gone only if something outside the daemon has removed it. -/
def noteExport (s : Sys W) (target : Int) (name : String) : Except Raised (Dict W.R.Value) × Sys W :=
  match s.disk.root.bundle name with
  | none => (.error .fileNotFoundError, s)
  | some bundle =>
    let m := manifest W.R s.engine.journal.deviceId (W.clock.timeNs s.ticks) (bundleFiles bundle) name
      target
    (.ok m, s.tick.audit "recovery_export" [("integrity_sha256", .str (W.R.hexdigest (manifestBytes m))),
      ("snapshot_name", .str name), ("target_sequence", .int target)])

/-! ## 2. What a recipient checks -/

/-- The manifest hashes to the value in the audit log, and it lists the files with their hashes. -/
structure Intact (R : Runtime) (integrity : String) (manifestFile : Bytes) (files : Dict Bytes) :
    Prop where
  manifest : R.hexdigest manifestFile = integrity
  files : ∃ kvs, R.loads manifestFile = .ok (.obj kvs) ∧
    Dict.get kvs "files" = some (.obj (fileHashes R files))

/-- The audit file ends with an entry. -/
def Noted (s : Sys W) (event : String) (details : Dict W.R.Value) : Prop :=
  ∃ (es : List (AuditEntry W.R)) (e : AuditEntry W.R),
    s.disk.audit.active = some (chainOf W.R (es ++ [e])) ∧ e.event = event ∧ e.details = details

/-- The hash tells the texts apart. -/
def TellsApart (R : Runtime) (texts : List Bytes) : Prop :=
  ∀ a ∈ texts, ∀ b ∈ texts, R.sha256 a = R.sha256 b → a = b

section Pinned

variable {R : Runtime}

theorem TellsApart.subset {texts texts' : List Bytes} (h : TellsApart R texts)
    (hsub : texts' ⊆ texts) : TellsApart R texts' := fun a ha b hb => h a (hsub ha) b (hsub hb)

theorem bundleFiles_sorted (d : Dir) : (bundleFiles d).Sorted := by
  have hstart : Dict.Sorted [("base.img", d.base), ("journal.jsonl", d.log),
      ("metadata.json", d.metadata)] :=
    Dict.sorted_of_keys (rfl : _ = ["base.img", "journal.jsonl", "metadata.json"]) (by decide)
  exact run_invariant (I := Dict.Sorted) hstart d.torn fun _ _ _ h => Dict.sorted_set h

theorem fileHashes_wf {files : Dict Bytes} (h : files.Sorted) :
    (Json.obj (fileHashes R files)).Wf := by
  refine ⟨List.pairwise_map.mpr h, Json.wfMembers_iff.mpr ?_⟩
  intro kv hkv
  obtain ⟨f, -, rfl⟩ := List.mem_map.mp hkv
  trivial

theorem manifest_wf {deviceId name : String} {ns : Nat} {files : Dict Bytes} {target : Int}
    (h : files.Sorted) : (Json.obj (manifest R deviceId ns files name target)).Wf := by
  refine ⟨Dict.sorted_of_keys (rfl : _ = ["device_id", "exported_at_ns", "files", "snapshot_name",
    "target_sequence"]) (by decide), ?_⟩
  exact ⟨trivial, trivial, fileHashes_wf h, trivial, trivial, trivial⟩

/-- Equal hashes under the same names are equal files. -/
theorem files_of_hashes : ∀ {files files' : Dict Bytes},
    TellsApart R (files.map Prod.snd ++ files'.map Prod.snd) →
    fileHashes R files = fileHashes R files' → files = files'
  | [], [], _, _ => rfl
  | [], _ :: _, _, h => by cases h
  | _ :: _, [], _, h => by cases h
  | (name, bytes) :: files, (name', bytes') :: files', hR, h => by
    simp only [fileHashes, List.map_cons, List.cons.injEq, Prod.mk.injEq, Json.str.injEq] at h
    obtain ⟨⟨rfl, hdigest⟩, hrest⟩ := h
    obtain rfl : bytes = bytes' :=
      hR _ (by simp) _ (by simp) (hexdigest_injective hdigest)
    have hsub : files.map Prod.snd ++ files'.map Prod.snd ⊆
        ((name, bytes) :: files).map Prod.snd ++ ((name, bytes) :: files').map Prod.snd := by
      intro a ha
      rcases List.mem_append.mp ha with ha | ha
      · exact List.mem_append_left _ (List.mem_cons_of_mem _ ha)
      · exact List.mem_append_right _ (List.mem_cons_of_mem _ ha)
    rw [files_of_hashes (hR.subset hsub) hrest]

/-- **A manifest and files that pass are the ones that were made.** -/
theorem intact_iff {deviceId name : String} {ns : Nat} {files files' : Dict Bytes} {target : Int}
    {manifestFile : Bytes} (hsorted : files.Sorted)
    (hR : TellsApart R (manifestFile :: manifestBytes (manifest R deviceId ns files name target) ::
      (files'.map Prod.snd ++ files.map Prod.snd))) :
    Intact R (R.hexdigest (manifestBytes (manifest R deviceId ns files name target))) manifestFile
        files' ↔
      manifestFile = manifestBytes (manifest R deviceId ns files name target) ∧ files' = files := by
  have hload : R.loads (manifestBytes (manifest R deviceId ns files name target)) =
      .ok (.obj (manifest R deviceId ns files name target)) :=
    Runtime.loads_eq_ok (Json.loads_dump (.indented 2) (manifest_wf hsorted))
  constructor
  · rintro ⟨hdigest, kvs, hkvs, hfiles⟩
    obtain rfl := hR _ (by simp) _ (by simp) (hexdigest_injective hdigest)
    rw [hload] at hkvs
    cases hkvs
    have hlisted : some (Json.obj (fileHashes R files)) = some (Json.obj (fileHashes R files')) :=
      hfiles
    refine ⟨rfl, (files_of_hashes (hR.subset ?_) (Json.obj.inj (Option.some.inj hlisted))).symm⟩
    intro a ha
    refine List.mem_cons_of_mem _ (List.mem_cons_of_mem _ ?_)
    rcases List.mem_append.mp ha with ha | ha
    · exact List.mem_append_right _ ha
    · exact List.mem_append_left _ ha
  · rintro ⟨rfl, rfl⟩
    exact ⟨rfl, _, hload, rfl⟩

end Pinned

/-! ## 3. The end of an export -/

/-- An append ends the active file with its entry. -/
theorem noted_audit {md : Metadata} {ws : List (Write md)} {es : List (AuditEntry W.R)} {s : Sys W}
    (h : Opened ws es s) (event : String) {details : Dict W.R.Value}
    (hwf : (Json.obj details).Wf) : Noted (s.audit event details) event details := by
  have hchain := (h.audit event hwf).1.chain
  unfold Sys.entriesAfter entriesAfter at hchain
  split at hchain
  · exact ⟨[_], _, hchain, rfl, rfl⟩
  · exact ⟨es, _, hchain, rfl, rfl⟩

/-- The details of the entry. -/
theorem noteDetails_wf (integrity name : String) (target : Int) :
    (Json.obj ([("integrity_sha256", .str integrity), ("snapshot_name", .str name),
      ("target_sequence", .int target)] : Dict W.R.Value)).Wf := by
  refine ⟨Dict.sorted_of_keys (rfl : _ = ["integrity_sha256", "snapshot_name", "target_sequence"])
    (by decide), ?_⟩
  exact ⟨trivial, trivial, trivial, trivial⟩

/-- **What the noted hash pins**: the manifest and the files of the bundle, and by them the history
up to the target, as the live journal read it when the range was checked. -/
def Exporting.Pinned (y : Exporting W) (target : Int) (name : String) : Prop :=
  ∃ bundle fresh m, y.sys.disk.root.bundle name = some bundle ∧
    (noteExport y.sys target name).1 = .ok m ∧
    Noted (noteExport y.sys target name).2 "recovery_export"
      [("integrity_sha256", .str (W.R.hexdigest (manifestBytes m))), ("snapshot_name", .str name),
        ("target_sequence", .int target)] ∧
    (∀ manifestFile files, TellsApart W.R (manifestFile :: manifestBytes m ::
        (files.map Prod.snd ++ (bundleFiles bundle).map Prod.snd)) →
      (Intact W.R (W.R.hexdigest (manifestBytes m)) manifestFile files ↔
        manifestFile = manifestBytes m ∧ files = bundleFiles bundle)) ∧
    DurableJournal.init W.R bundle = .ok (fresh, bundle) ∧ (fresh.lastSequence : Int) = target ∧
    ∀ b < y.atCheck.engine.journal.blocks, ∃ image,
      y.atCheck.engine.journal.read W.R y.atCheck.disk.root.toDir b 1 (some target) = .ok image ∧
        fresh.read W.R bundle b 1 none = .ok image

/-- **The evidence of an export is pinned**, whatever ran meanwhile, short of a compaction that
matters to it. -/
theorem exported_evidence_is_pinned {s : Sys W} (h : Reachable W (.on s)) {ops : List ExportOp}
    (hharmless : Along ExportOp.step (fun y o => o.Harmless y) (Exporting.start s) ops)
    {target : Int} {name : String}
    (hdone : (ops.foldl ExportOp.step (Exporting.start s)).phase = .done target name) :
    Exporting.Pinned (ops.foldl ExportOp.step (Exporting.start s)) target name := by
  obtain ⟨md, ws, es, p, hgood⟩ := h.good
  have hstart : ∃ (ws₀ ws : List (Write md)) (es : _) (p : _),
      (Exporting.start s).Kept ws₀ ws es p := ⟨ws, ws, es, p, hgood, hgood.journal, trivial⟩
  have hstep : ∀ (y : Exporting W) (o : ExportOp), o.Harmless y →
      (∃ (ws₀ ws : List (Write md)) (es : _) (p : _), y.Kept ws₀ ws es p) →
      ∃ (ws₀ ws : List (Write md)) (es : _) (p : _), (ExportOp.step y o).Kept ws₀ ws es p := by
    rintro y o ho ⟨ws₀, ws, es, p, hkept⟩
    exact hkept.step ho
  obtain ⟨ws₀, ws', es', p', hkept⟩ := run_along_initial hstep hstart hharmless List.prefix_rfl
  generalize ops.foldl ExportOp.step (Exporting.start s) = y at hdone hkept
  obtain ⟨bundle, fresh, hbundle, hinit, hsequence, hread⟩ := hkept.exact target name hdone
  let m := manifest W.R y.sys.engine.journal.deviceId (W.clock.timeNs y.sys.ticks)
    (bundleFiles bundle) name target
  have hnoted : noteExport y.sys target name = (.ok m, y.sys.tick.audit "recovery_export"
      [("integrity_sha256", .str (W.R.hexdigest (manifestBytes m))), ("snapshot_name", .str name),
        ("target_sequence", .int target)]) := by
    rw [noteExport, hbundle]
  refine ⟨bundle, fresh, m, hbundle, by rw [hnoted], ?_, ?_, hinit, hsequence, ?_⟩
  · rw [hnoted]
    exact noted_audit hkept.good.tick.toOpened _ (noteDetails_wf _ _ _)
  · intro manifestFile files hR
    exact intact_iff (bundleFiles_sorted bundle) hR
  · intro b hb
    obtain ⟨image, hlive, -, hcurrent⟩ := hread b hb
    exact ⟨image, hlive, hcurrent⟩

/-- An export that nothing comes between, after one write. -/
theorem export_of_one_write {es : List (AuditEntry World.quiet.R)} {p : Saved World.quiet.R}
    {s : Sys World.quiet} (h : Good ([] : List (Write ⟨"dev", 4, 512⟩)) es p s)
    (hboot : s.engine.state = .normal) (hnone : s.disk.root.snapshots = []) :
    ([.call writeSevens, .check none, .next "000000", .next "000000", .next "000000",
      .next "000000", .next "000000"].foldl ExportOp.step (Exporting.start s)).phase =
        .done 1 "export-0-seq1-000000" := by
  have hwritten := write_records h.toLedgers (by rw [hboot]; decide) sevens
  let y₁ := ExportOp.step (Exporting.start s) (.call writeSevens)
  have hcanon : Canonical World.quiet.R [sevens] y₁.sys.engine.journal y₁.sys.disk.root.toDir :=
    hwritten
  have hroot : y₁.sys.disk.root.snapshots = [] :=
    (write_extends h.toLedgers sevens.start sevens.data).snapshots.trans hnone
  let y₂ := y₁.check none
  have hphase : y₂.phase = .checked 1 := by
    simp [y₂, Exporting.check, hcanon.lastSequence]
  have hlimit : y₂.sys.disk.root.snapshots.length < maxSnapshots := by
    have hsnapshots : y₂.sys.disk.root.snapshots = [] := hroot
    rw [hsnapshots]
    decide
  have hname : toString "export-" ++ toString 0 ++ toString "-seq" ++ toString (1 : Int) ++
      toString "-" ++ toString "000000" = "export-0-seq1-000000" := by decide
  have hsnapshot : y₂.sys.engine.journal.snapshot World.quiet.R y₂.sys.disk.root
      "export-0-seq1-000000" (some ((1 : Nat) : Int)) = _ :=
    hcanon.snapshot_at (by decide) (by rw [hroot]; exact List.not_mem_nil) (Nat.le_refl 1)
  have hnext := Exporting.next_alone hphase hlimit "000000"
  rw [show World.quiet.clock.timeNs y₂.sys.ticks = 0 from rfl, hname] at hnext
  dsimp only at hnext
  rw [show (some (1 : Int)) = some ((1 : Nat) : Int) from rfl, hsnapshot] at hnext
  exact hnext.1

theorem exported_evidence_is_pinned_one_write : ∃ dir,
    provision World.quiet.R 4 512 "dev" = .ok dir ∧
    Exporting.Pinned ([.call writeSevens, .check none, .next "000000", .next "000000",
      .next "000000", .next "000000", .next "000000"].foldl ExportOp.step
        (Exporting.start (quietBoot dir))) 1 "export-0-seq1-000000" := by
  obtain ⟨dir, hdir⟩ := provision_four_blocks
  obtain ⟨-, es, p, hsaved⟩ := reopen_fresh (W := World.quiet) hdir 0
  have hdone := export_of_one_write hsaved.toGood rfl rfl
  have hreach := reachable_quietBoot hdir
  refine ⟨dir, hdir,
    exported_evidence_is_pinned hreach (Exporting.harmless_of_quiet hreach ?_) hdone⟩
  exact ⟨id, trivial, trivial, trivial, trivial, trivial, trivial, trivial⟩

end AegisShield.Api
