import FeatureHeader.PyString

/-!
# Files, paths and the Python calls that touch them

The generator reads one file and replaces another.  A file system is a map from
paths to contents; a run is an `EStateM` computation over it whose exceptions
keep the state reached so far, as a Python exception leaves behind what was
already written.  Directories, permissions and text encodings are outside the
model: opening a path for appending always succeeds, and file contents are
decoded text.

`open(path, "r")` reads the file as it is when it is opened.  On POSIX a handle
keeps reading the file it opened even after its path is removed, which is what
happens when the input and output paths coincide.
-/

namespace FeatureHeader

/-- The exceptions a run can end with. -/
inductive PyExc
  | fileNotFound
  | typeError
  | systemExit
  deriving DecidableEq, Repr

/-- The files of the machine, by path. -/
@[ext] structure FileSystem where
  files : List Char → Option (List Char)

namespace FileSystem

/-- `path` holding `content`, or no file for `none`; every other path as before. -/
def set (fs : FileSystem) (path : List Char) (content : Option (List Char)) : FileSystem :=
  ⟨fun other => if other = path then content else fs.files other⟩

@[simp] theorem set_files_self (fs : FileSystem) (path : List Char)
    (content : Option (List Char)) : (fs.set path content).files path = content := by
  simp [set]

@[simp] theorem set_files_of_ne (fs : FileSystem) {path other : List Char}
    (content : Option (List Char)) (different : other ≠ path) :
    (fs.set path content).files other = fs.files other := by
  simp [set, different]

@[simp] theorem set_set (fs : FileSystem) (path : List Char) (first second : Option (List Char)) :
    (fs.set path first).set path second = fs.set path second := by
  ext1
  funext other
  by_cases same : other = path <;> simp [set, same]

theorem set_of_files {fs : FileSystem} {path : List Char}
    {content : Option (List Char)} (current : fs.files path = content) :
    fs.set path content = fs := by
  ext1
  funext other
  by_cases same : other = path
  · subst same
    simp [current]
  · simp [same]

end FileSystem

/-- `open(path, "r")` and the `read()` of that handle. -/
def openRead (path : List Char) : EStateM PyExc FileSystem (List Char) := fun fs =>
  match fs.files path with
  | some text => .ok text fs
  | none => .error .fileNotFound fs

/-- `os.path.exists(path)`. -/
def pathExists (path : List Char) : EStateM PyExc FileSystem Bool := fun fs =>
  .ok (fs.files path).isSome fs

/-- `os.remove(path)`. -/
def remove (path : List Char) : EStateM PyExc FileSystem Unit := fun fs =>
  .ok () (fs.set path none)

/-- `open(path, "a")`, which creates an empty file where there is none. -/
def openAppend (path : List Char) : EStateM PyExc FileSystem Unit := fun fs =>
  .ok () (fs.set path (some ((fs.files path).getD [])))

/-- `write(text)` on the handle `open(path, "a")` returned; writing `None`
raises `TypeError`. -/
def write (path : List Char) (text : Option (List Char)) : EStateM PyExc FileSystem Unit :=
  fun fs =>
    match text with
    | some text => .ok () (fs.set path (some ((fs.files path).getD [] ++ text)))
    | none => .error .typeError fs

/-- The file system a run leaves behind, however it ended. -/
def finalState {α : Type} : EStateM.Result PyExc FileSystem α → FileSystem
  | .ok _ fs => fs
  | .error _ fs => fs

/-- The status `python generator.py` exits with when its run ends so: `exit()`
raises `SystemExit(None)`, which exits with 0, and an uncaught exception exits
with 1. -/
def exitStatus {α : Type} : EStateM.Result PyExc FileSystem α → Nat
  | .ok _ _ => 0
  | .error .systemExit _ => 0
  | .error _ _ => 1

/-- `str.rfind(c)`, with `none` for `-1`. -/
def rfind (s : List Char) (c : Char) : Option Nat :=
  (s.reverse.findIdx? (· == c)).map (s.length - 1 - ·)

/-- `PurePosixPath(path).name`: the last component, empty and `.` components
dropped. -/
def pathName (path : List Char) : List Char :=
  ((path.splitOn '/').filter fun part => part ≠ [] ∧ part ≠ ['.']).getLastD []

/-- `PurePosixPath(path).stem`: the name without its last suffix. -/
def stem (path : List Char) : List Char :=
  let name := pathName path
  match rfind name '.' with
  | some i => if 0 < i ∧ i < name.length - 1 then name.take i else name
  | none => name

example : stem "build/ez_target_config.h".toList = "ez_target_config".toList := by decide

end FeatureHeader
