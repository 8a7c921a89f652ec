import Kannel.Gwlib.CfgDef
import Kannel.Gwlib.Dict

/-!
# Reading a configuration

A blank line ends a group, and a line with `include` anywhere in it names files. The loop is
bounded by a number of rounds; a `panic` is `assertion`, the result `-1` is `invalid`.
-/

namespace Kannel

instance sixtyFour_neZero : NeZero (64 * 2) := ⟨by decide⟩

structure CfgGroup where
  name : Option Octstr
  vars : Dict Octstr (64 * 2)
  configfile : Option Octstr

def createGroup : CfgGroup := ⟨none, dictCreate Octstr 64, none⟩

structure Cfg where
  filename : Octstr
  singleGroups : Dict CfgGroup (64 * 2)
  multiGroups : Dict (List CfgGroup) (64 * 2)

def cfgCreate (filename : Octstr) : Cfg :=
  ⟨filename, dictCreate CfgGroup 64, dictCreate (List CfgGroup) 64⟩

def isAllowedInGroup (hooks : List (Octstr → Octstr → Int)) (group varname : Octstr) : Int :=
  hooks.foldl (fun r hook =>
    let x := hook group varname
    if x = -1 then r else if r = -1 then x else r + x) (-1)

structure CfgHooks where
  allowed : List (Octstr → Octstr → Int)
  single : List (Octstr → Int)
  names : ∀ group varname, isAllowedInGroup allowed group varname ≠ 0 →
    isAllowedInGroup allowed group varname ≠ -1 → isVariableName varname = true

def CfgHooks.allows (hooks : CfgHooks) (group varname : Octstr) : Bool :=
  isAllowedInGroup hooks.allowed group varname ≠ 0 &&
    isAllowedInGroup hooks.allowed group varname ≠ -1

def CfgHooks.isSingleGroup (hooks : CfgHooks) (query : Octstr) : Bool :=
  (hooks.single.map (· query)).sum > 0

def coreHooks : CfgHooks where
  allowed := [coreIsAllowedInGroup]
  single := [coreIsSingleGroup]
  names group varname h0 h1 := by
    have hcore : isAllowedInGroup [coreIsAllowedInGroup] group varname =
        coreIsAllowedInGroup group varname := by
      simp only [isAllowedInGroup, List.foldl_cons, List.foldl_nil, if_true]
      split_ifs with h
      · exact h.symm
      · rfl
    rw [hcore] at h0 h1
    exact isVariableName_of_core h0 h1

def expandEnvLoop (getenv : Octstr → Option Octstr) : (rounds : Nat) → Octstr → Octstr
  | 0, value => value
  | rounds + 1, value =>
    match octstrSearch value (ascii "$\x7b") 0 with
    | none => value
    | some start =>
      match octstrSearchChar value 125 (start + 2) with
      | none => value
      | some stop =>
        let varname := (value.take stop).drop (start + 2)
        value.take start ++ (getenv (octstrGetCstr (some varname))).getD [] ++
          expandEnvLoop getenv rounds (value.drop (stop + 1))

def expandEnvVars (getenv : Octstr → Option Octstr) (value : Octstr) : Octstr :=
  expandEnvLoop getenv value.length value

def cfgGet (getenv : Octstr → Option Octstr) (grp : CfgGroup) (varname : Octstr) : Option Octstr :=
  (dictGet grp.vars varname).map (expandEnvVars getenv)

def cfgSet (grp : CfgGroup) (varname value : Octstr) : CfgGroup :=
  { grp with vars := dictPut grp.vars varname (some value) }

def unquote : Octstr → Octstr
  | [] => []
  | [c] => [c]
  | c :: d :: rest =>
    if c ≠ 92 then c :: unquote (d :: rest)
    else if d = 92 ∨ d = 34 then d :: unquote rest
    else 92 :: d :: unquote rest

def parseCfgValue (value : Octstr) : Octstr :=
  let value := octstrStripBlanks value
  if value.head? = some 34 ∧ value.getLast? = some 34 then unquote (value.dropLast.drop 1)
  else value

def joinLines : (loc : Option Octstr) → List Octstr → List Octstr
  | none, [] => []
  | some loc, [] => [loc]
  | loc, line :: lines =>
    if line.getLast? = some 92 then
      let joined := loc.getD [] ++ line.dropLast
      if line.dropLast.getLast? = some 92 then joined :: joinLines none lines
      else joinLines (some joined) lines
    else (loc.getD [] ++ line) :: joinLines none lines

structure CfgEnv where
  readFile : Octstr → Option Octstr
  lstat : Octstr → Option Bool
  readdir : Octstr → List Octstr
  getenv : Octstr → Option Octstr

def expandFile (env : CfgEnv) (file : Octstr) : Option (List Octstr) :=
  (env.readFile (octstrGetCstr (some file))).map fun os =>
    let lines := joinLines none (octstrSplit os 10)
    if lines = [] then [] else lines ++ [[10]]

def storeGroup (hooks : CfgHooks) (cfg : Cfg) (groupname : Octstr) (grp : CfgGroup) : Cfg :=
  if hooks.isSingleGroup groupname then
    { cfg with singleGroups := dictPut cfg.singleGroups groupname (some grp) }
  else
    let list := (dictGet cfg.multiGroups groupname).getD []
    { cfg with multiGroups := dictPut cfg.multiGroups groupname (some (list ++ [grp])) }

def addGroup (hooks : CfgHooks) (env : CfgEnv) (cfg : Cfg) (grp : CfgGroup) : Option Cfg :=
  match cfgGet env.getenv grp (ascii "group") with
  | none => none
  | some groupname =>
    if (dictKeys grp.vars).all (hooks.allows groupname) then
      some (storeGroup hooks cfg groupname { grp with name := some groupname })
    else none

structure Reading where
  lines : List Octstr
  stack : List Octstr
  grp : Option CfgGroup
  cfg : Cfg

def includedFiles (env : CfgEnv) (filename : Octstr) : Except Failure (List Octstr) :=
  match env.lstat (octstrGetCstr (some filename)) with
  | none => .error .assertion
  | some false => .ok [filename]
  | some true =>
    let items := (env.readdir (octstrGetCstr (some filename))).map (filename ++ [47] ++ ·)
    .ok (items.filter fun item => env.lstat (octstrGetCstr (some item)) ≠ some true).reverse

def includeFiles (env : CfgEnv) : List Octstr → Reading → Except Failure Reading
  | [], s => .ok s
  | file :: files, s =>
    if file ∈ s.stack then includeFiles env files s
    else match expandFile env file with
      | none => .error .assertion
      | some expand =>
        includeFiles env files { s with stack := file :: s.stack, lines := expand ++ s.lines }

def setVariable (s : Reading) (line : Octstr) (equals : Nat) : Reading :=
  let grp := s.grp.getD createGroup
  let grp := { grp with configfile := some s.cfg.filename }
  { s with grp := some (cfgSet grp (octstrStripBlanks (line.take equals))
      (parseCfgValue (line.drop (equals + 1)))) }

def endGroup (hooks : CfgHooks) (env : CfgEnv) (s : Reading) : Except Failure Reading :=
  match s.grp with
  | none => .ok s
  | some grp =>
    match addGroup hooks env s.cfg grp with
    | none => .error .invalid
    | some cfg => .ok { s with cfg := cfg, grp := none }

def readLine (hooks : CfgHooks) (env : CfgEnv) (s : Reading) (loc : Octstr) :
    Except Failure Reading :=
  let line := octstrStripBlanks loc
  if line = [] then endGroup hooks env s
  else if line.head? = some 35 then .ok s
  else match octstrSearchChar line 61 0 with
    | none => .error .invalid
    | some equals =>
      if (octstrSearch line (ascii "include") 0).isSome then do
        let files ← includedFiles env (parseCfgValue (line.drop (equals + 1)))
        includeFiles env files s
      else .ok (setVariable s line equals)

def cfgReadLoop (hooks : CfgHooks) (env : CfgEnv) : (rounds : Nat) → Reading →
    Option (Except Failure Cfg)
  | 0, _ => none
  | rounds + 1, s =>
    match s.lines with
    | [] => some ((endGroup hooks env s).map Reading.cfg)
    | loc :: lines =>
      match readLine hooks env { s with lines := lines } loc with
      | .error failure => some (.error failure)
      | .ok s' => cfgReadLoop hooks env rounds s'

def cfgRead (hooks : CfgHooks) (env : CfgEnv) (filename : Octstr) (rounds : Nat) :
    Option (Except Failure Cfg) :=
  match expandFile env filename with
  | none => some (.error .assertion)
  | some lines => cfgReadLoop hooks env rounds ⟨lines, [filename], none, cfgCreate filename⟩

end Kannel
