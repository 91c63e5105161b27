import FeatureAtlas.Concurrency.Pool
import FeatureAtlas.Config.Load
import FeatureAtlas.Failure.Basic
import FeatureAtlas.Generation.Basic
import FeatureAtlas.Log.Outlet

/-!
# How errors are reported

Every error of the library as a failure: which kind it is, and what it says.
-/

namespace FeatureAtlas

/-! ## Files -/

/-- The kind of a fault of the file system. -/
def FileFault.kind : FileFault → FailureKind
  | notFound => .notFound
  | exists_ => .other "FileExistsError"
  | notDirectory => .notDirectory
  | isDirectory => .other "IsADirectoryError"
  | _ => .other "OSError"

instance : Reportable FileError where
  failure e := ⟨e.fault.kind, e.message⟩

instance : Reportable CanonicalError where
  failure
    | .refused e => Reportable.failure e
    | e => ⟨.other "RuntimeError", e.message⟩

instance : Reportable WriteError where
  failure
    | .noParent e => Reportable.failure e
    | .refused e => Reportable.failure e
    | .parentNotDirectory p => ⟨.notDirectory, (WriteError.parentNotDirectory p).message⟩
    | .encoding (.unknown n) => ⟨.other "LookupError", (EncodingError.unknown n).message⟩
    | .encoding e => ⟨.other "UnicodeEncodeError", e.message⟩

instance : Reportable Utf8Error where
  failure e := ⟨.other "UnicodeDecodeError", e.message⟩

/-! ## Patterns and configurations -/

/-- The failure of a pattern. -/
def PatternError.failure (source : String) (e : PatternError) : Failure :=
  let kind := match e with
    | .fault _ _ => "error"
    | .countTooLarge => "OverflowError"
    | .conflictingOptions => "ValueError"
  ⟨.other kind, e.message source⟩

instance : Reportable PatternFailure where
  failure f := f.error.failure f.source

instance : Reportable KeyOrderError where
  failure e := ⟨.other "TypeError", e.message⟩

instance : Reportable HomeError where
  failure e := ⟨.other "RuntimeError", e.message⟩

instance : Reportable OverrideError where
  failure e := ⟨.configLoad, e.message⟩

instance : Reportable (List ConfigIssue) where
  failure issues := ⟨.configInvalid, ConfigIssue.report issues⟩

instance : Reportable Yaml.Fault where
  failure e :=
    let kind := match e with
      | .noDigits => "IndexError"
      | .notBoolean _ => "KeyError"
      | .notTimestamp => "AttributeError"
      | .cyclic => "RecursionError"
      | _ => "ValueError"
    ⟨.other kind, e.message⟩

instance : Reportable LoadError where
  failure
    | .invalid issues => Reportable.failure issues
    | .notSought e => Reportable.failure e
    | .notText e => Reportable.failure e
    | .yamlScalar e => Reportable.failure e
    | .keyOrder e => Reportable.failure e
    | .pattern e => Reportable.failure e
    | .home e => Reportable.failure e
    | .loop path => ⟨.other "RuntimeError", (LoadError.loop path).message⟩
    | e => ⟨.configLoad, e.message⟩

/-! ## Projects and generations -/

instance : Reportable ProjectError where
  failure
    | .notText e => Reportable.failure e
    | .notSought e => Reportable.failure e
    | .longInteger digits => ⟨.other "ValueError", (ProjectError.longInteger digits).message⟩
    | e => ⟨.projectLoad, e.message⟩

instance : Reportable ProjectFault where
  failure e := ⟨.other "RuntimeError", e.message⟩

instance : Reportable OptionsError where
  failure
    | .home e => Reportable.failure e
    | .noSection name => ⟨.other "KeyError", (OptionsError.noSection name).message⟩

instance : Reportable GenerationError where
  failure
    | .pattern source e => e.failure source
    | .project e => Reportable.failure e
    | .clock => ⟨.other "OverflowError", GenerationError.clock.message⟩
    | .notWritten target (.noParent (.loop path)) =>
      ⟨.other "RuntimeError", (GenerationError.notWritten target (.noParent (.loop path))).message⟩
    | e => ⟨.other "FeatureMapWriteError", e.message⟩

/-! ## Concurrency -/

instance : Reportable SemaphoreError where
  failure
    | .limitNotPositive => ⟨.other "ValueError", SemaphoreError.limitNotPositive.message⟩
    | e => ⟨.other "RuntimeError", e.message⟩

instance : Reportable PoolError where
  failure e := ⟨.other "ValueError", e.message⟩

/-! ## Logs -/

instance : Reportable TemplateError where
  failure e :=
    let kind := match e with
      | .incomplete | .incompleteKey | .widthTooBig | .precisionTooBig | .unknownConversion ..
      | .notANumberToInteger => "ValueError"
      | .missingKey _ => "KeyError"
      | .integerTooLarge | .infinityToInteger | .characterOutOfRange | .extentTooLarge _ =>
        "OverflowError"
      | _ => "TypeError"
    ⟨.other kind, e.message⟩

instance : Reportable EpochError where
  failure e :=
    let kind := match e with
      | .outOfClock => "OverflowError"
      | .valueTooLarge => "OSError"
      | _ => "ValueError"
    ⟨.other kind, e.message⟩

instance : Reportable RecordError where
  failure
    | .template e => Reportable.failure e
    | .clock e => Reportable.failure e
    | .momentOutOfRange => ⟨.other "OverflowError", RecordError.momentOutOfRange.message⟩

instance : Reportable LevelError where
  failure e := ⟨.other "ValueError", e.message⟩

instance : Reportable LogSetupError where
  failure
    | .level e => Reportable.failure e
    | .file e => Reportable.failure e
    | .notAPath kind => ⟨.other "TypeError", (LogSetupError.notAPath kind).message⟩

instance : Reportable LogCallError where
  failure
    | .reservedField key => ⟨.other "KeyError", (LogCallError.reservedField key).message⟩
    | .eventTwice s => ⟨.other "TypeError", (LogCallError.eventTwice s).message⟩
    | .template e => Reportable.failure e

end FeatureAtlas
