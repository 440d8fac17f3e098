import NamedQuery.Command.Path

/-!
# Files and folders

The files that commands read and write, in a tree of folders with a working
folder.  A place in the tree is the list of the names that lead to it from the
top.  A path is walked name by name, and each name but the last has to be that
of a folder.
-/

namespace NamedQuery.Command

/-! ## Trees -/

inductive FileNode where
  | file (content : ByteArray)
  | folder (entries : List (String × FileNode))
  deriving Inhabited

namespace FileNode

def entries : FileNode → List (String × FileNode)
  | .file _ => []
  | .folder entries => entries

/-- What is at a place below a node. -/
def find? : FileNode → List String → Option FileNode
  | node, [] => some node
  | node, name :: rest =>
      match node.entries.lookup name with
      | none => none
      | some inner => inner.find? rest

/-- Gives a name to a node, in the place of one that has it already. -/
def setEntry (name : String) (node : FileNode) :
    List (String × FileNode) → List (String × FileNode)
  | [] => [(name, node)]
  | entry :: rest =>
      if entry.1 = name then (name, node) :: rest else entry :: setEntry name node rest

/-- Puts a node at a place, in folders that are made as they are needed. -/
def put (new : FileNode) : List String → FileNode → FileNode
  | [], _ => new
  | name :: rest, node =>
      .folder (setEntry name (new.put rest ((node.entries.lookup name).getD (.folder [])))
        node.entries)

mutual

/-- The files of a node by their places below it. -/
def files : FileNode → List (List String × ByteArray)
  | .file content => [([], content)]
  | .folder entries => filesOf entries

def filesOf : List (String × FileNode) → List (List String × ByteArray)
  | [] => []
  | (name, node) :: rest =>
      node.files.map (fun entry => (name :: entry.1, entry.2)) ++ filesOf rest

end

end FileNode

structure FileTree where
  root : FileNode
  working : List String

namespace FileTree

def find? (tree : FileTree) (place : List String) : Option FileNode := tree.root.find? place

def put (tree : FileTree) (place : List String) (node : FileNode) : FileTree :=
  { tree with root := node.put place tree.root }

/-! ## Walking -/

/-- A step can be taken from a folder only. -/
def enter (tree : FileTree) (place : List String) : Except FileError Unit :=
  match tree.find? place with
  | none => .error .notFound
  | some (.file _) => .error .notFolder
  | some (.folder _) => .ok ()

/-- The place that a name leads to from a folder.  A dot stays there, and two
dots go back, but not above the top. -/
def nextPlace (place : List String) (name : String) : Except FileError (List String) :=
  if name = "." then .ok place
  else if name = ".." then .ok place.dropLast
  else if name.utf8ByteSize > maxNameSize then .error .nameTooLong
  else .ok (place ++ [name])

def step (tree : FileTree) (place : List String) (name : String) :
    Except FileError (List String) :=
  (tree.enter place).bind fun _ => nextPlace place name

/-- The place that names lead to from another.  Nothing needs to be there. -/
def walk (tree : FileTree) : List String → List String → Except FileError (List String)
  | place, [] => .ok place
  | place, name :: rest => (tree.step place name).bind fun next => tree.walk next rest

/-- The place that a path starts from. -/
def startOf (tree : FileTree) (path : String) : List String :=
  if isAbsolute path then [] else tree.working

/-! ## Reading -/

/-- The content of a file.  A path that ends in a slash has to lead to a folder. -/
def read (tree : FileTree) (path : String) : Except FileError ByteArray :=
  match pathFault? path with
  | some fault => .error fault
  | none =>
      let steps := stepsOf path ++ if endsInSlash path then ["."] else []
      (tree.walk (tree.startOf path) steps).bind fun place =>
        match tree.find? place with
        | none => .error .notFound
        | some (.folder _) => .error .isFolder
        | some (.file content) => .ok content

/-! ## Writing -/

/-- Makes the folder that a name leads to, unless it is there, and gives its
place. -/
def makeFolder (tree : FileTree) (place : List String) (name : String) :
    Except FileError (FileTree × List String) :=
  (tree.step place name).bind fun next =>
    match tree.find? next with
    | some (.folder _) => .ok (tree, next)
    | some (.file _) => .error .alreadyExists
    | none => .ok (tree.put next (.folder []), next)

/-- What is left of a tree after a step that changes nothing when it fails. -/
def settle {α : Type} (tree : FileTree) :
    Except FileError (FileTree × α) → FileTree × Except FileError α
  | .ok (after, value) => (after, .ok value)
  | .error fault => (tree, .error fault)

/-- Makes a folder, of which the names are given from the last to the first, and
gives its place.  When the way to it is missing, that is made first, and it stays
when the folder cannot be made. -/
def makeFolders (tree : FileTree) (start : List String) :
    List String → FileTree × Except FileError (List String)
  | [] => (tree, .ok start)
  | name :: before =>
      match (tree.walk start before.reverse).bind fun place => tree.makeFolder place name with
      | .error .notFound =>
          let (made, way) := tree.makeFolders start before
          made.settle (way.bind fun place => made.makeFolder place name)
      | result => tree.settle result

/-- Makes a folder with those on the way to it. -/
def create (tree : FileTree) (path : String) : FileTree × Except FileError (List String) :=
  match pathFault? path with
  | some fault => (tree, .error fault)
  | none => tree.makeFolders (tree.startOf path) (stepsOf path).reverse

/-- Writes a file in a folder that is there. -/
def write (tree : FileTree) (path : String) (content : ByteArray) :
    Except FileError FileTree :=
  match pathFault? path, (stepsOf path).reverse with
  | some fault, _ => .error fault
  | none, [] => .error .isFolder
  | none, name :: before =>
      (tree.walk (tree.startOf path) before.reverse).bind fun place =>
        if endsInSlash path then
          (tree.enter place).bind fun _ => .error .isFolder
        else
          (tree.step place name).bind fun next =>
            match tree.find? next with
            | some (.folder _) => .error .isFolder
            | _ => .ok (tree.put next (.file content))

/-! ## The working folder -/

/-- The folders at the top of a system. -/
def systemFolders : List String :=
  ["bin", "dev", "etc", "home", "lib", "media", "mnt", "opt", "proc", "root", "run", "sbin",
    "srv", "sys", "tmp", "usr", "var"]

/-- A system with an empty working folder.  The name of that folder is empty, so
that no path spells it.  The null device holds nothing. -/
def system : FileTree :=
  let top : FileTree := ⟨.folder (("", .folder []) :: systemFolders.map (·, .folder [])), [""]⟩
  top.put ["dev", "null"] (.file ByteArray.empty)

/-- Adds a folder to the working folder. -/
def addFolder (tree : FileTree) (path : String) : FileTree :=
  let place := tree.working ++ stepsOf path
  if (tree.find? place).isSome then tree else tree.put place (.folder [])

/-- Adds a file to the working folder. -/
def addFile (tree : FileTree) (path : String) (content : ByteArray) : FileTree :=
  tree.put (tree.working ++ stepsOf path) (.file content)

/-- The files in the working folder that another tree does not have with the
same content, by their places from there. -/
def changedFrom (after before : FileTree) : List (List String × ByteArray) :=
  match after.find? after.working with
  | none => []
  | some node =>
      node.files.filter fun entry =>
        match before.find? (before.working ++ entry.1) with
        | some (.file content) => content != entry.2
        | _ => true

end FileTree

end NamedQuery.Command
