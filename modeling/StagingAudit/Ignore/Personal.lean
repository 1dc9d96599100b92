import StagingAudit.Ignore.Rule

/-!
# The user's own ignore file

Beside the ignore files of a project there is one of the user. A setting `excludesfile` in one of
git's settings files names it; without such a setting it is `git/ignore` in the directory of the
user's settings. Its patterns are seen from the current directory, and complaints about it are not
made.

Git's settings are not read in full: the first line that looks like the setting counts, in
whatever section it stands.
-/

namespace StagingAudit.Ignore

/-! ## The setting -/

/-- White space in git's settings. -/
def isBlankByte (b : UInt8) : Bool := b == 32 || (9 ≤ b && b ≤ 13)

/-- The byte of a line feed. -/
def lineFeed : UInt8 := 10

/-- The byte of a quotation mark. -/
def quote : UInt8 := 34

/-- A letter of ASCII in lower case, any other byte as it is. -/
def lowerByte (b : UInt8) : UInt8 := if 65 ≤ b && b ≤ 90 then b + 32 else b

/-- What follows a word in lower case, in whatever case the word is written. -/
def afterWord? : List UInt8 → List UInt8 → Option (List UInt8)
  | [], bytes => some bytes
  | _ :: _, [] => none
  | w :: word, b :: bytes => if lowerByte b = w then afterWord? word bytes else none

/-- Whether nothing but white space comes before the end of some line. -/
def endsLine (bytes : List UInt8) : Bool :=
  (bytes.takeWhile isBlankByte).contains lineFeed || bytes.all isBlankByte

/-- Whether a value ends here: nothing but white space and one quotation mark comes before the end
of some line. -/
def endsValue (bytes : List UInt8) : Bool :=
  endsLine bytes ||
    match bytes.dropWhile isBlankByte with
    | b :: rest => b == quote && endsLine rest
    | [] => true

/-- The shortest value without white space that starts here. -/
def shortestValue? : List UInt8 → Option (List UInt8)
  | [] => none
  | b :: bytes =>
    if isBlankByte b then none
    else if endsValue bytes then some [b]
    else (shortestValue? bytes).map (b :: ·)

/-- The value that starts here, without a quotation mark in front of it if that is possible. -/
def valueOf? (bytes : List UInt8) : Option (List UInt8) :=
  match bytes with
  | b :: rest =>
    if b = quote then
      (shortestValue? (rest.dropWhile isBlankByte)).or (shortestValue? bytes)
    else shortestValue? bytes
  | [] => none

/-- The value of the setting, if it is the first thing here apart from white space. -/
def settingHere? (bytes : List UInt8) : Option (List UInt8) := do
  let rest ← afterWord? (encode "excludesfile".toList) (bytes.dropWhile isBlankByte)
  let rest ← afterWord? (encode ['=']) (rest.dropWhile isBlankByte)
  valueOf? (rest.dropWhile isBlankByte)

/-- The value of the setting in the first line that has it; `fresh` says whether a line starts
here. -/
def settingFrom? (fresh : Bool) : List UInt8 → Option (List UInt8)
  | [] => none
  | b :: bytes =>
    match if fresh then settingHere? (b :: bytes) else none with
    | some value => some value
    | none => settingFrom? (b == lineFeed) bytes

/-! ## The file -/

/-- A path with the home directory in place of every tilde. -/
def expandTilde (home : String) (path : List Char) : List Char :=
  path.flatMap fun c => if c = '~' then home.toList else [c]

/-- The file that a settings file of git names. -/
def namedFile? (t : FileTree) (cwd : Path) (home : String) (file : Path) : Option Path :=
  match t.read cwd file with
  | .ok bytes => ((settingFrom? true bytes).bind decode?).map fun text => ⟨expandTilde home text⟩
  | .error _ => none

/-- The settings files of git in a home directory, first the one that counts more. -/
def gitSettings (home : String) : List Path :=
  [".gitconfig", ".config/git/config"].map fun name => (Path.ofString home).join (.ofString name)

/-- The user's ignore file, whether it exists or not. -/
def personalFile (t : FileTree) (cwd : Path) (home : String) : Path :=
  ((gitSettings home).findSome? (namedFile? t cwd home)).getD
    ((Path.ofString home).join (.ofString ".config/git/ignore"))

/-- The user's own rules; without a home directory there are none. -/
def personalRules (t : FileTree) (cwd : Path) (home : Option String) : List Rule :=
  match home with
  | some home =>
    let file := personalFile t cwd home
    (RuleFile.ofLook file (t.look cwd file)).rules
  | none => []

/-- The bytes of a path as the user's own rules see it: what follows the text of the current
directory, or all of it. -/
def pathFrom (cwd path : Path) : List UInt8 :=
  match Recogniser.literal cwd.chars path.chars with
  | some ('/' :: rest) => encode rest
  | some rest => encode rest
  | none => encode path.chars

end StagingAudit.Ignore
