import PitBox.Foundations.Checked
import PitBox.Runtime.Execution
import PitBox.Runtime.Transparency

/-!
# Where an execution panics

A prepared artifact keeps its kind in fields that may be empty, and every
preparation fills them in another way. `execute` looks at one of them and
unwraps others, as `measureInstantiation` does, and the deadline of an execution
is a sum that may not be an instant.
-/

namespace PitBox.Runtime

open Checked

/-- The sum of an instant and a duration, up to the latest instant of the clock. -/
def Instant.checkedAdd (now : Instant) (duration : Duration) (latest : Instant) : Option Instant :=
  if now + duration ≤ latest then some (now + duration) else none

/-- The deadline of an execution is an instant. -/
def DeadlineFits (latest now : Instant) (limits : ExecutionLimits) : Prop :=
  ∀ timeout ∈ limits.timeout, now + timeout ≤ latest

instance (latest now : Instant) (limits : ExecutionLimits) :
    Decidable (DeadlineFits latest now limits) :=
  inferInstanceAs (Decidable (∀ timeout ∈ limits.timeout, now + timeout ≤ latest))

/-- The control of an execution, unless its deadline overflows. -/
def ExecutionControl.checkedNew (latest : Instant) (timeout : Option Duration) (now : Instant) :
    Option ExecutionControl :=
  match timeout with
  | none => some ⟨none, .none⟩
  | some timeout => (now.checkedAdd timeout latest).map fun deadline => ⟨some deadline, .none⟩

namespace PreparedArtifact

variable {M C : Type} (latest : Instant) (prepared : PreparedArtifact M C)
  (request : ExecutionRequest) (run : CommandRun)

/-- `executeP2` with its panics. -/
def executeP2Checked : Checked Error RuntimeExecutionResult := do
  let _ ← orPanic (ExecutionControl.checkedNew latest request.limits.timeout run.now)
  let _ ← orPanic prepared.component
  let _ ← orPanic prepared.p2Linker
  return executeP2 request run

/-- `executeCore` with its panics. -/
def executeCoreChecked : Checked Error RuntimeExecutionResult := do
  let _ ← orPanic (ExecutionControl.checkedNew latest request.limits.timeout run.now)
  let _ ← orPanic prepared.p1Linker
  let _ ← orPanic prepared.coreModule
  return executeCore request run

/-- `execute` with its panics. -/
def executeChecked (wasiPreview2Entrypoint : Text) : Checked Error RuntimeExecutionResult := do
  let _ ← Checked.ofExcept request.validate
  let _ ← ensure (request.artifact.id = prepared.artifact.id)
    ["execution request artifact '" ++ request.artifact.id ++
      "' does not match prepared artifact '" ++ prepared.artifact.id ++ "'"]
  if prepared.component.isSome then
    let _ ← ensure (request.entrypoint = wasiPreview2Entrypoint)
      ["unsupported WASI Preview 2 entrypoint '" ++ String.ofList request.entrypoint ++
        "'; expected " ++ String.ofList wasiPreview2Entrypoint]
    executeP2Checked latest prepared request run
  else executeCoreChecked latest prepared request run

/-- Measures an instantiation, whose outcome and time are the environment's. -/
def measureInstantiation (instantiation : Except Error Unit) (elapsed : Duration) :
    Checked Error Duration := do
  let _ ← Checked.ofExcept request.validate
  let _ ← ensure (request.artifact.id = prepared.artifact.id)
    ["execution request artifact does not match prepared artifact"]
  match prepared.component, prepared.p2Linker with
  | some _, some _ =>
    let _ ← Checked.ofExcept instantiation
    return elapsed
  | _, _ =>
    let _ ← orPanic prepared.p1Linker
    let _ ← orPanic prepared.coreModule
    let _ ← Checked.ofExcept instantiation
    return elapsed

end PreparedArtifact

/-! ### The shapes of prepared artifacts -/

/-- The fields a preparation fills in, by the format of the artifact and by
whether there is a compiled cache. -/
inductive PreparedArtifact.Shape {M C : Type} (prepared : PreparedArtifact M C) :
    ArtifactFormat → Bool → Prop
  | coreModule {cached : Bool} (hmodule : prepared.coreModule.isSome)
      (hlinker : prepared.p1Linker.isSome) (hcomponent : prepared.component = none) :
    Shape prepared .coreModule cached
  | component (hcomponent : prepared.component.isSome) (hlinker : prepared.p2Linker.isSome) :
    Shape prepared .component false
  | http (hmodule : prepared.coreModule = none) (hcomponent : prepared.component = none) :
    Shape prepared .component true

section Shapes

variable {M C : Type} {host : Host} {runtime : PitRuntime M C} {files : Files}
  {artifact : WasmArtifact} {bytes : Bytes} {prepared : PreparedArtifact M C}
  {report : PreparationReport}

theorem prepareCoreModule_shape (cached : Bool)
    (h : prepareCoreModule runtime artifact bytes = .ok prepared) :
    prepared.Shape .coreModule cached := by
  obtain ⟨coreModule, -, h⟩ := bind_eq_ok.mp h
  obtain ⟨linker, -, h⟩ := bind_eq_ok.mp h
  cases h
  exact .coreModule rfl rfl rfl

theorem prepareComponent_shape {requestedWorld : Option String}
    (h : prepareComponent runtime artifact bytes requestedWorld = .ok prepared) :
    prepared.Shape .component false := by
  obtain ⟨linker, -, h⟩ := bind_eq_ok.mp h
  obtain ⟨component, -, h⟩ := bind_eq_ok.mp h
  obtain ⟨httpComponent, -, h⟩ := bind_eq_ok.mp h
  obtain ⟨_, -, h⟩ := bind_eq_ok.mp h
  dsimp only at h
  split_ifs at h <;>
  · obtain ⟨httpPre, -, h⟩ := bind_eq_ok.mp h
    cases h
    exact .component rfl rfl

theorem prepareRestored_shape {component : C} {restored : PreparationReport}
    (h : prepareRestored runtime artifact component restored = .ok (prepared, report)) :
    prepared.Shape .component true := by
  obtain ⟨linker, -, h⟩ := bind_eq_ok.mp h
  split_ifs at h
  · obtain ⟨pre, -, h⟩ := bind_eq_ok.mp h
    cases h
    exact .http rfl rfl
  · cases h
    exact .http rfl rfl

/-- The format of an artifact, as its preparation finds it. -/
def artifactFormat (host : Host) (files : Files) (artifact : WasmArtifact) :
    Except Error ArtifactFormat :=
  (readArtifactBytes files artifact.source).bind host.detectFormat

/-- Every preparation leaves one of the shapes. -/
theorem prepareWithWorld_shape {requestedWorld : Option String}
    {cache : Option CompiledCacheConfig} {publication : Publication} {dir : CacheDir}
    (h :
      (prepareWithWorld host runtime files artifact requestedWorld cache publication dir).result =
      .ok (prepared, report)) :
    ∃ format, artifactFormat host files artifact = .ok format ∧
      prepared.Shape format cache.isSome := by
  unfold prepareWithWorld at h
  unfold artifactFormat
  cases hbytes : readArtifactBytes files artifact.source with
  | error error => simp [hbytes] at h
  | ok bytes =>
    simp only [hbytes] at h
    cases hformat : host.detectFormat bytes with
    | error error => simp [hformat] at h
    | ok format =>
      refine ⟨format, hformat, ?_⟩
      cases format with
      | coreModule =>
        simp only [hformat] at h
        obtain ⟨p, hp, heq⟩ := map_eq_ok.mp h
        cases heq
        exact prepareCoreModule_shape _ hp
      | component =>
        simp only [hformat] at h
        cases cache with
        | none =>
          obtain ⟨p, hp, heq⟩ := map_eq_ok.mp h
          cases heq
          exact prepareComponent_shape hp
        | some config =>
          dsimp only at h
          split at h
          · cases h
          · exact prepareRestored_shape h

/-- The functions that prepare an artifact. -/
inductive PreparationFunction where
  | prepare
  | prepareHttp
  | prepareHttpCached (cache : CompiledCacheConfig) (publication : Publication)

namespace PreparationFunction

def cache : PreparationFunction → Option CompiledCacheConfig
  | .prepare | .prepareHttp => none
  | .prepareHttpCached cache _ => some cache

def run (host : Host) (runtime : PitRuntime M C) (files : Files) (artifact : WasmArtifact)
    (dir : CacheDir) : PreparationFunction → Except Error (PreparedArtifact M C)
  | .prepare => Runtime.prepare host runtime files artifact dir
  | .prepareHttp => Runtime.prepareHttp host runtime files artifact dir
  | .prepareHttpCached cache publication =>
    (Runtime.prepareHttpCached host runtime files artifact cache publication dir).result.map
      Prod.fst

theorem run_shape {dir : CacheDir} {f : PreparationFunction}
    (h : f.run host runtime files artifact dir = .ok prepared) :
    ∃ format, artifactFormat host files artifact = .ok format ∧
      prepared.Shape format f.cache.isSome := by
  cases f with
  | prepare | prepareHttp | prepareHttpCached =>
    obtain ⟨⟨p, report⟩, hp, rfl⟩ := map_eq_ok.mp h
    exact prepareWithWorld_shape hp

end PreparationFunction

end Shapes

/-! ### Panics of the two entry points -/

section Requests

variable {M C : Type} {latest now : Instant} {prepared : PreparedArtifact M C}
  {request : ExecutionRequest} {run : CommandRun} {wasiPreview2Entrypoint : Text}

theorem ExecutionControl.checkedNew_eq_none {timeout : Option Duration} :
    ExecutionControl.checkedNew latest timeout now = none ↔
      ¬ ∀ t ∈ timeout, now + t ≤ latest := by
  cases timeout with
  | none => simp [checkedNew]
  | some timeout => simp [checkedNew, Instant.checkedAdd]

namespace PreparedArtifact

theorem executeP2Checked_panics (hcomponent : prepared.component.isSome)
    (hlinker : prepared.p2Linker.isSome) :
    (executeP2Checked latest prepared request run).Panics ↔
      ¬ DeadlineFits latest run.now request.limits := by
  obtain ⟨component, hcomponent⟩ := Option.isSome_iff_exists.mp hcomponent
  obtain ⟨linker, hlinker⟩ := Option.isSome_iff_exists.mp hlinker
  rw [DeadlineFits, ← ExecutionControl.checkedNew_eq_none, executeP2Checked, hcomponent, hlinker]
  cases ExecutionControl.checkedNew latest request.limits.timeout run.now with
  | none => exact iff_of_true (panics_orPanic_none_bind _) rfl
  | some control => exact iff_of_false not_panics_pure (Option.some_ne_none _)

theorem executeCoreChecked_panics (h : prepared.coreModule.isSome → prepared.p1Linker.isSome) :
    (executeCoreChecked latest prepared request run).Panics ↔
      ¬ (DeadlineFits latest run.now request.limits ∧ prepared.coreModule.isSome) := by
  rw [DeadlineFits, not_and_or, ← ExecutionControl.checkedNew_eq_none, executeCoreChecked]
  cases ExecutionControl.checkedNew latest request.limits.timeout run.now with
  | none => exact iff_of_true (panics_orPanic_none_bind _) (.inl rfl)
  | some control =>
    rw [orPanic_some_bind]
    cases hlinker : prepared.p1Linker with
    | none =>
      refine iff_of_true (panics_orPanic_none_bind _) (.inr fun hmodule => ?_)
      have hsome := h hmodule
      rw [hlinker] at hsome
      cases hsome
    | some linker =>
      rw [orPanic_some_bind]
      cases prepared.coreModule with
      | none => exact iff_of_true (panics_orPanic_none_bind _) (.inr Bool.noConfusion)
      | some coreModule => exact iff_of_false not_panics_pure (by simp)

theorem executeChecked_eq (hvalid : request.validate = .ok ())
    (hid : request.artifact.id = prepared.artifact.id) :
    executeChecked latest prepared request run wasiPreview2Entrypoint =
      if prepared.component.isSome then do
        let _ ← ensure (request.entrypoint = wasiPreview2Entrypoint)
          ["unsupported WASI Preview 2 entrypoint '" ++ String.ofList request.entrypoint ++
            "'; expected " ++ String.ofList wasiPreview2Entrypoint]
        executeP2Checked latest prepared request run
      else executeCoreChecked latest prepared request run := by
  rw [executeChecked, hvalid, ofExcept_ok_bind, ensure_bind (by simpa using hid)]

variable {format : ArtifactFormat} {cached : Bool} {instantiation : Except Error Unit}
  {elapsed : Duration}

/-- An artifact with its shape is executed without a panic unless it is an HTTP
component from a compiled cache or its deadline overflows. -/
theorem Shape.executeChecked_panics (h : prepared.Shape format cached)
    (hvalid : request.validate = .ok ()) (hid : request.artifact.id = prepared.artifact.id) :
    (executeChecked latest prepared request run wasiPreview2Entrypoint).Panics ↔
      (format = .component ∧ cached = true) ∨
        ¬ DeadlineFits latest run.now request.limits ∧
          (format = .component → request.entrypoint = wasiPreview2Entrypoint) := by
  rw [executeChecked_eq hvalid hid]
  cases h with
  | coreModule hmodule hlinker hcomponent =>
    rw [if_neg (by simp [hcomponent]), executeCoreChecked_panics fun _ => hlinker]
    simp [hmodule]
  | http hmodule hcomponent =>
    rw [if_neg (by simp [hcomponent]), executeCoreChecked_panics (by simp [hmodule])]
    simp [hmodule]
  | component hcomponent hlinker =>
    rw [if_pos hcomponent]
    by_cases hentry : request.entrypoint = wasiPreview2Entrypoint
    · rw [ensure_bind (by simpa using hentry), executeP2Checked_panics hcomponent hlinker]
      simp [hentry]
    · simp [hentry, ensure, Panics]

theorem Shape.measureInstantiation_panics (h : prepared.Shape format cached)
    (hvalid : request.validate = .ok ()) (hid : request.artifact.id = prepared.artifact.id) :
    (measureInstantiation prepared request instantiation elapsed).Panics ↔
      format = .component ∧ cached = true := by
  rw [measureInstantiation, hvalid, ofExcept_ok_bind, ensure_bind (by simpa using hid)]
  have hrest :
      ¬ (do let _ ← Checked.ofExcept instantiation; return elapsed :
        Checked Error Duration).Panics :=
    not_panics_bind not_panics_ofExcept fun _ _ => not_panics_pure
  cases h with
  | coreModule hmodule hlinker hcomponent =>
    obtain ⟨coreModule, hmodule⟩ := Option.isSome_iff_exists.mp hmodule
    obtain ⟨linker, hlinker⟩ := Option.isSome_iff_exists.mp hlinker
    rw [hcomponent, hlinker, hmodule]
    exact iff_of_false hrest (by simp)
  | component hcomponent hlinker =>
    obtain ⟨component, hcomponent⟩ := Option.isSome_iff_exists.mp hcomponent
    obtain ⟨linker, hlinker⟩ := Option.isSome_iff_exists.mp hlinker
    rw [hcomponent, hlinker]
    exact iff_of_false hrest (by simp)
  | http hmodule hcomponent =>
    rw [hcomponent, hmodule]
    refine iff_of_true ?_ ⟨rfl, rfl⟩
    cases prepared.p1Linker <;> rfl

theorem executeP2Checked_run (h : ¬ (executeP2Checked latest prepared request run).Panics) :
    (executeP2Checked latest prepared request run).run = some (.ok (executeP2 request run)) := by
  obtain ⟨control, hcontrol, h⟩ := exists_of_not_panics h
  obtain ⟨component, hcomponent, h⟩ := exists_of_not_panics h
  obtain ⟨linker, hlinker, -⟩ := exists_of_not_panics h
  rw [executeP2Checked, hcontrol, hcomponent, hlinker]
  rfl

theorem executeCoreChecked_run (h : ¬ (executeCoreChecked latest prepared request run).Panics) :
    (executeCoreChecked latest prepared request run).run =
      some (.ok (executeCore request run)) := by
  obtain ⟨control, hcontrol, h⟩ := exists_of_not_panics h
  obtain ⟨linker, hlinker, h⟩ := exists_of_not_panics h
  obtain ⟨coreModule, hmodule, -⟩ := exists_of_not_panics h
  rw [executeCoreChecked, hcontrol, hlinker, hmodule]
  rfl

/-- An execution that does not panic is the execution. -/
theorem executeChecked_run
    (h : ¬ (executeChecked latest prepared request run wasiPreview2Entrypoint).Panics) :
    (executeChecked latest prepared request run wasiPreview2Entrypoint).run =
      some (prepared.execute request run wasiPreview2Entrypoint) := by
  unfold executeChecked at h ⊢
  unfold execute
  cases hvalid : request.validate with
  | error error => rfl
  | ok =>
    rw [hvalid, ofExcept_ok_bind] at h
    rw [ofExcept_ok_bind]
    by_cases hid : request.artifact.id = prepared.artifact.id
    · rw [ensure_bind (by simpa using hid)] at h ⊢
      by_cases hcomponent : prepared.component.isSome
      · rw [if_pos hcomponent] at h ⊢
        by_cases hentry : request.entrypoint = wasiPreview2Entrypoint
        · rw [ensure_bind (by simpa using hentry)] at h ⊢
          rw [executeP2Checked_run h]
          simp [hid, hcomponent, hentry, bind, Except.bind, pure, Except.pure]
        · rw [ensure_bind_run (by simpa using hentry)]
          simp [hid, hcomponent, hentry, bind, Except.bind]
      · rw [if_neg hcomponent] at h ⊢
        rw [executeCoreChecked_run h]
        simp [hid, hcomponent, bind, Except.bind, pure, Except.pure]
    · rw [ensure_bind_run (by simpa using hid)]
      simp [hid, bind, Except.bind]

end PreparedArtifact

open PreparedArtifact

variable {host : Host} {runtime : PitRuntime M C} {files : Files} {artifact : WasmArtifact}
  {dir : CacheDir} {f : PreparationFunction}

/-- An artifact that was prepared by any of the functions is executed and
measured without a panic exactly if it is not an HTTP component from a compiled
cache and the deadline is an instant, the latter unless the entrypoint of a
component is refused before. -/
theorem PreparationFunction.returns_iff
    (hprepared : f.run host runtime files artifact dir = .ok prepared)
    (hvalid : request.validate = .ok ()) (hid : request.artifact.id = prepared.artifact.id)
    (latest : Instant) (run : CommandRun) (wasiPreview2Entrypoint : Text)
    (instantiation : Except Error Unit) (elapsed : Duration) :
    (¬ (executeChecked latest prepared request run wasiPreview2Entrypoint).Panics ∧
        ¬ (measureInstantiation prepared request instantiation elapsed).Panics) ↔
      ¬ (artifactFormat host files artifact = .ok .component ∧ f.cache.isSome) ∧
        (DeadlineFits latest run.now request.limits ∨
          artifactFormat host files artifact = .ok .component ∧
            request.entrypoint ≠ wasiPreview2Entrypoint) := by
  obtain ⟨format, hformat, hshape⟩ := run_shape hprepared
  rw [hshape.executeChecked_panics hvalid hid, hshape.measureInstantiation_panics hvalid hid,
    hformat, Except.ok.injEq]
  tauto

end Requests

/-! ### Artifacts from a compiled cache -/

section Demo

open PreparedArtifact

/-- A request for an artifact with the defaults of a request. -/
def requestOf (artifact : WasmArtifact) : ExecutionRequest where
  artifact
  entrypoint := "_start".toList
  args := []
  env := []
  limits := ⟨none, none⟩

/-- A run of a guest that does nothing, a second after the clock started. -/
def quietRun : CommandRun where
  instantiation := ⟨[], ⟨"", none⟩, .ok ()⟩
  typedFunc := .ok ()
  call := ⟨[], ⟨"", none⟩, .ok (.ok ())⟩
  stdout := []
  stderr := []
  started := 0
  now := 1
  duration := 0

def wasiRun : Text := "wasi:cli/run".toList

/-- An artifact that was prepared without a cache, with an hour to run. -/
theorem returns_iff_prepared :
    ∃ prepared, PreparationFunction.prepare.run linuxHost fileBackedRuntime (fun _ => .missing)
        (.fromBytes linuxHost componentA) [] = .ok prepared ∧
      ¬ (executeChecked (2 ^ 63) prepared
          { requestOf prepared.artifact with limits := ⟨some 3600, none⟩, entrypoint := wasiRun }
          quietRun wasiRun).Panics ∧
      ¬ (measureInstantiation prepared
          { requestOf prepared.artifact with limits := ⟨some 3600, none⟩, entrypoint := wasiRun }
          (.ok ()) 5).Panics := by
  have hprepared : PreparationFunction.prepare.run linuxHost fileBackedRuntime (fun _ => .missing)
      (.fromBytes linuxHost componentA) [] = .ok _ := rfl
  refine ⟨_, hprepared, ?_⟩
  apply (PreparationFunction.returns_iff hprepared rfl rfl _ _ _ _ _).mpr
  refine ⟨fun h => Bool.noConfusion h.2, .inl ?_⟩
  decide +kernel

/-- A component from a compiled cache panics with the defaults of a request, and
one that was prepared without a cache with a timeout beyond the clock. -/
theorem cachedComponent_panics :
    (∃ prepared, (PreparationFunction.prepareHttpCached ⟨"/var/cache/pit", 1024⟩ ⟨7, 0⟩).run
        linuxHost fileBackedRuntime (fun _ => .missing) (.fromBytes linuxHost componentA) [] =
          .ok prepared ∧
      (requestOf prepared.artifact).validate = .ok () ∧
      (executeChecked (2 ^ 63) prepared (requestOf prepared.artifact) quietRun wasiRun).Panics ∧
      (measureInstantiation prepared (requestOf prepared.artifact) (.ok ()) 5).Panics) ∧
    ∃ prepared, PreparationFunction.prepare.run linuxHost fileBackedRuntime (fun _ => .missing)
        (.fromBytes linuxHost componentA) [] = .ok prepared ∧
      (executeChecked (2 ^ 63) prepared
        { requestOf prepared.artifact with limits := ⟨some (2 ^ 63), none⟩, entrypoint := wasiRun }
        quietRun wasiRun).Panics := by
  have hformat : artifactFormat linuxHost (fun _ => .missing) (.fromBytes linuxHost componentA) =
      .ok .component := rfl
  constructor
  · have hok : ((PreparationFunction.prepareHttpCached ⟨"/var/cache/pit", 1024⟩ ⟨7, 0⟩).run
        linuxHost fileBackedRuntime (fun _ => .missing) (.fromBytes linuxHost componentA)
          []).isOk = true := by decide +kernel
    match hprepared : (PreparationFunction.prepareHttpCached ⟨"/var/cache/pit", 1024⟩ ⟨7, 0⟩).run
        linuxHost fileBackedRuntime (fun _ => .missing) (.fromBytes linuxHost componentA) [] with
    | .error error =>
      rw [hprepared] at hok
      cases hok
    | .ok prepared =>
      obtain ⟨format, hf, hshape⟩ := PreparationFunction.run_shape hprepared
      obtain rfl := Except.ok.inj (hformat.symm.trans hf)
      exact ⟨prepared, rfl, rfl, (hshape.executeChecked_panics rfl rfl).mpr (.inl ⟨rfl, rfl⟩),
        (hshape.measureInstantiation_panics rfl rfl).mpr ⟨rfl, rfl⟩⟩
  · have hprepared : PreparationFunction.prepare.run linuxHost fileBackedRuntime (fun _ => .missing)
        (.fromBytes linuxHost componentA) [] = .ok _ := rfl
    obtain ⟨format, -, hshape⟩ := PreparationFunction.run_shape hprepared
    exact ⟨_, hprepared,
      (hshape.executeChecked_panics rfl rfl).mpr (.inr ⟨by decide +kernel, fun _ => rfl⟩)⟩

end Demo

end PitBox.Runtime
