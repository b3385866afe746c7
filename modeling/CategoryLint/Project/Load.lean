import CategoryLint.Project.Check
import CategoryLint.Project.Packaged
import CategoryLint.Project.Root
import CategoryLint.Project.Standard
import CategoryLint.Setting.Sharing

/-!
# Loading the configuration

The configuration of a project has three layers: the defaults, the overlays in the
project's directory for settings, in the order of their names, and the environment. Each
goes on top of those before. A strict load refuses malformed names of variables and
checks the result against the schema.
-/

namespace CategoryLint.Project

variable [Limits] [Libraries]

/-! ## Files -/

/-- The failure that a fault in the document of a file is. -/
def faultFailure (p : Path) : Yaml.Fault → Failure
  | .invalid | .ended => .config (.invalidYaml p.text)
  | .scalar e => .scalar e
  | .tooDeep what => .tooDeep what
  | .notUtf8 => .notUtf8

/-- The mapping that a file with some bytes holds, with its objects after those that are
    there. -/
def readBytes (objects : Objects) (p : Path) (bytes : List UInt8) :
    Except Failure (Entries × Objects) :=
  match Libraries.readDocument objects bytes with
  | .error fault => .error (faultFailure p fault)
  | .ok (.scalar .null, objects) => .ok ([], objects)
  | .ok (v, objects) =>
    match objects.entries? v with
    | some es => .ok (es, objects)
    | none => .error (.config (.notMapping p.text))

/-- The mapping that a file holds, with its objects after those that are there. A file that
    is missing or empty holds none. -/
def readMapping (w : Workspace) (objects : Objects) (p : Path) :
    Except Failure (Entries × Objects) :=
  match w.lookup p with
  | .nothing | .found (.link _) => .ok ([], objects)
  | .tooLong => .error .pathTooLong
  | .found (.directory _) => .error .isDirectory
  | .found (.file bytes) => readBytes objects p bytes

/-- The configuration that a file holds. -/
def readConfig (w : Workspace) (p : Path) : Except Failure Config :=
  (readMapping w #[] p).map fun (entries, objects) => { entries, objects }

/-- The entries of a directory whose names have an ending, in the order of their names. -/
def filesEnding (t : FileTree) (directory : Path) (ending : String) : List Path :=
  let chosen := (t.entries.map (·.1)).filter fun n => ending.toList.isSuffixOf n.toList
  (chosen.mergeSort fun a b => a ≤ b).map directory.child

/-! ## Layers -/

/-- Puts overlays on top of a configuration, up to the first that cannot be read: the
    overlays that were tried, and what came of it. -/
def addOverlays (w : Workspace) (config : Config) :
    List Path → List Path × Except Failure Config
  | [] => ([], .ok config)
  | p :: ps =>
    match readMapping w config.objects p with
    | .error e => ([p], .error e)
    | .ok (es, objects) =>
      match objects.merge config.entries es with
      | none => ([p], .error (.tooDeep .merge))
      | some entries =>
        let (tried, result) := addOverlays w { entries, objects } ps
        (p :: tried, result)

/-- The course of loading a configuration. -/
structure Loaded where
  /-- The overlays that were read. -/
  tried : List Path := []
  /-- The files that look like overlays and were passed over. -/
  ignored : List Path := []
  /-- The paths of the settings that variables wrote to. -/
  paths : List (List String) := []
  /-- The configuration. -/
  result : Except Failure Config

/-- The configuration after its last layer, the environment, and the check. -/
def finish (strict : Bool) (applied : Override.Applied Config) : Except Failure Config :=
  match applied.failure with
  | some e => .error e
  | none =>
    if strict then (Schema.validate Schema.name applied.config).map fun _ => applied.config
    else .ok applied.config

/-- Puts the environment on top of a configuration. -/
def addEnvironment (w : Workspace) (strict : Bool) (config : Config) : Loaded :=
  let applied :=
    Override.applyWith Sharing.set strict config (Override.ofEnvironment w.environment)
  { paths := applied.paths, result := finish strict applied }

/-- Loads the configuration of the project at a root. -/
def load (w : Workspace) (root : Path) (strict : Bool) : Loaded :=
  let directory := overlayDirectory root
  match w.lookup directory with
  | .tooLong => { result := .error .pathTooLong }
  | .nothing => addEnvironment w strict Packaged.defaults
  | .found t =>
    match addOverlays w Packaged.defaults (filesEnding t directory ".yml") with
    | (tried, .error e) => { tried, result := .error e }
    | (tried, .ok config) =>
      { addEnvironment w strict config with
        tried, ignored := filesEnding t directory ".yaml" }

/-- The text of the base category in a section; a section that does not count as given
    has none, and any other must be a mapping. -/
def sectionBase (config : Config) (patterns : Value) : Except Failure TextValue :=
  if patterns.isGiven then
    match patterns with
    | .mapping es =>
      .ok (config.unfold ((Entries.get? es (.str "baseCategory")).getD .null)).textOrEmpty
    | _ => .error .sectionNotMapping
  else .ok (.plain "")

/-- The category that the configuration of a project requires. -/
def baseCategory (w : Workspace) (root : Path) : Except Failure TextValue :=
  match (load w root true).result with
  | .error e => .error e
  | .ok config => sectionBase config ((config.get? (.str "patterns")).getD .null)

/-! ## The log -/

/-- What the log says about loading a configuration. -/
def Loaded.log (l : Loaded) : List Log.Entry :=
  l.tried.map (fun p =>
    ⟨.debug, .configuration, "Loading project config overlay " ++ p.text⟩) ++
  l.ignored.map (fun p =>
    ⟨.warning, .configuration,
      "Ignoring " ++ p.text ++ ": project overlays must use the .yml extension"⟩) ++
  l.paths.map Override.logEntry

end CategoryLint.Project
