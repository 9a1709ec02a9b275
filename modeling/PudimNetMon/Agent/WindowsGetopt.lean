import Mathlib.Algebra.Ring.Nat
import PudimNetMon.Lib.CString

/-!
# `getopt_long` for Windows (`platform/getopt.cpp`)

The replacement keeps its place between calls: the element of `argv` that comes next, and a pointer into the short
options of that element if some of them are left. A call is undefined where it reads an element behind the last one or a
byte behind the NUL of an element.

- `getoptLong`: a call;
- `Ready`: what holds between calls;
- `getoptLong_spec`: no call is undefined, and the calls come to an end.
-/

namespace PudimNetMon.Agent.WindowsGetopt

/-! ## Options and globals -/

def requiredArgument : Int := 1

def optionalArgument : Int := 2

/-- `struct option` -/
structure LongOption where
  name : CString
  hasArg : Int
  /-- The variable that is set to the value, if it is not returned. -/
  flag : Option Nat
  val : Int

/-- A pointer into an element of `argv`. -/
structure Ptr where
  elem : Nat
  off : Nat

structure Globals where
  optarg : Option Ptr := none
  optind : Nat := 1
  opterr : Bool
  optopt : Int := 0
  gPos : Option Ptr := none

/-- What a call returns and leaves, and what it writes: to `*longindex`, to the option's variable and to `stderr`. -/
structure Outcome where
  ret : Int
  globals : Globals
  longindex : Option Nat := none
  stored : Option (Nat × Int) := none
  printed : List UInt8 := []

def bytesOf (text : String) : List UInt8 := text.toUTF8.toList

/-- A character as an `int`; `char` is signed. -/
def intOf (c : UInt8) : Int := c.toInt8.toInt

def questionMark : Int := '?'.toNat

/-! ## Long options -/

inductive FoundLong
  | option (idx : Nat) (lo : LongOption)
  | missing
  | ambiguous

/-- The loop of `FindLong`, at an index; the option that begins with the name and whether another one does. -/
def findLong (arg : CString) (name namelen : Nat) :
    Nat → Option (Nat × LongOption) → Bool → List LongOption → Option FoundLong
  | _, found, ambiguous, [] =>
    some (if ambiguous then .ambiguous else
      match found with
      | some (idx, lo) => .option idx lo
      | none => .missing)
  | i, found, ambiguous, o :: longopts => do
    let same ← o.name.strncmpEq arg name namelen
    if !same then findLong arg name namelen (i + 1) found ambiguous longopts
    else if o.name.length = namelen then some (.option i o)
    else if found.isSome then findLong arg name namelen (i + 1) found true longopts
    else findLong arg name namelen (i + 1) (some (i, o)) ambiguous longopts

section

variable (argv : List CString) (optstring : Option CString)

/-- `'?'` for an option that is not recognised, and whatever else goes wrong. -/
def fail (g : Globals) (optopt ret : Int) (message : List UInt8) : Outcome where
  ret := ret
  globals := { g with optopt, gPos := none, optind := g.optind + 1 }
  printed := if g.opterr then message else []

/-- The end of a long option. -/
def finish (g : Globals) (idx : Nat) (lo : LongOption) : Outcome where
  ret := if lo.flag.isSome then 0 else lo.val
  globals := { g with gPos := none, optind := g.optind + 1 }
  longindex := some idx
  stored := lo.flag.map fun flag => (flag, lo.val)

/-- What is returned for an argument that is missing. -/
def missingArgument : Option Int :=
  match optstring with
  | some s => (s.read 0).map fun c => if c = ':'.toUInt8 then intOf c else questionMark
  | none => some questionMark

/-- An option that was found, with the place of `=`. -/
def longArgument (g : Globals) (p : Ptr) (eq : Option Nat) (idx : Nat) (lo : LongOption) : Option Outcome :=
  if lo.hasArg = requiredArgument then
    match eq with
    | some e => some (finish { g with optarg := some ⟨p.elem, e + 1⟩ } idx lo)
    | none =>
      if g.optind + 1 < argv.length then do
        let _ ← argv[g.optind + 1]?
        some (finish { g with optind := g.optind + 1, optarg := some ⟨g.optind + 1, 0⟩ } idx lo)
      else do
        let ret ← missingArgument optstring
        let message := bytesOf "pudim-agent: option '--" ++ lo.name.bytes ++ bytesOf "' requires an argument\n"
        some { fail g lo.val ret message with longindex := some idx }
  else if lo.hasArg = optionalArgument then
    some (finish { g with optarg := eq.map fun e => ⟨p.elem, e + 1⟩ } idx lo)
  else if eq.isSome then
    let message := bytesOf "pudim-agent: option '--" ++ lo.name.bytes ++ bytesOf "' does not take an argument\n"
    some { fail g lo.val questionMark message with longindex := some idx }
  else some (finish { g with optarg := none } idx lo)

/-- The length of a name that ends at `=`, if there is one. -/
def nameLength (arg : CString) (name : Nat) : Option Nat → Option Nat
  | some e => some (e - name)
  | none => arg.strlen name

def longOption (g : Globals) (p : Ptr) (longopts : List LongOption) : Option Outcome := do
  let arg ← argv[p.elem]?
  let name := p.off + 1
  let eq ← arg.strchr name '='.toUInt8
  let namelen ← nameLength arg name eq
  match ← findLong arg name namelen 0 none false longopts with
  | .ambiguous =>
    let message := bytesOf "pudim-agent: option '--" ++ arg.bytes.drop name ++ bytesOf "' is ambiguous\n"
    some (fail g questionMark questionMark message)
  | .missing =>
    let message := bytesOf "pudim-agent: unrecognized option '--" ++ arg.bytes.drop name ++ bytesOf "'\n"
    some (fail g questionMark questionMark message)
  | .option idx lo => longArgument argv optstring g p eq idx lo

/-! ## Short options -/

/-- An option character that is in `optstring`, with what is behind it there. -/
def shortArgument (g : Globals) (p : Ptr) (arg : CString) (c behind : UInt8) : Option Outcome := do
  let following ← arg.read (p.off + 1)
  if behind = ':'.toUInt8 then
    if following ≠ 0 then
      some {
        ret := intOf c
        globals := { g with optarg := some ⟨p.elem, p.off + 1⟩, gPos := none, optind := g.optind + 1 } }
    else if g.optind + 1 < argv.length then do
      let _ ← argv[g.optind + 1]?
      some {
        ret := intOf c
        globals := { g with optarg := some ⟨g.optind + 1, 0⟩, gPos := none, optind := g.optind + 2 } }
    else do
      let ret ← missingArgument optstring
      let message := bytesOf "pudim-agent: option requires an argument -- '" ++ [c] ++ bytesOf "'\n"
      some (fail g c.toNat ret message)
  else if following = 0 then
    some { ret := intOf c, globals := { g with optarg := none, gPos := none, optind := g.optind + 1 } }
  else some { ret := intOf c, globals := { g with optarg := none, gPos := some ⟨p.elem, p.off + 1⟩ } }

def shortOption (g : Globals) (p : Ptr) : Option Outcome := do
  let arg ← argv[p.elem]?
  let c ← arg.read p.off
  let unknown := fail g c.toNat questionMark (bytesOf "pudim-agent: invalid option -- '" ++ [c] ++ bytesOf "'\n")
  match optstring with
  | none => some unknown
  | some s =>
    match ← s.strchr 0 c with
    | none => some unknown
    | some i => do
      let behind ← s.read (i + 1)
      shortArgument argv optstring g p arg c behind

/-! ## A call -/

variable (longopts : Option (List LongOption))

/-- The option at a pointer. -/
def optionAt (g : Globals) (p : Ptr) : Option Outcome := do
  let arg ← argv[p.elem]?
  let c ← arg.read p.off
  match longopts with
  | some longopts => if c = '-'.toUInt8 then longOption argv optstring g p longopts else shortOption argv optstring g p
  | none => shortOption argv optstring g p

/-- The first option of an element. -/
def startElement (g : Globals) (arg : CString) : Option Outcome := do
  let stop : Outcome := { ret := -1, globals := g }
  let c ← arg.read 0
  if c ≠ '-'.toUInt8 then some stop
  else do
    let d ← arg.read 1
    if d = 0 then some stop
    else if d ≠ '-'.toUInt8 then optionAt argv optstring longopts g ⟨g.optind, 1⟩
    else do
      let e ← arg.read 2
      if e = 0 then some { ret := -1, globals := { g with optind := g.optind + 1 } }
      else optionAt argv optstring longopts g ⟨g.optind, 1⟩

/-- The call, with `optarg` cleared. -/
def nextOption (g : Globals) : Option Outcome :=
  if g.optind ≥ argv.length then some { ret := -1, globals := g }
  else do
    let arg ← argv[g.optind]?
    match g.gPos with
    | some p => optionAt argv optstring longopts g p
    | none => startElement argv optstring longopts g arg

def getoptLong (g : Globals) : Option Outcome := nextOption argv optstring longopts { g with optarg := none }

/-- A later call. -/
def nthCall : Nat → Globals → Option Outcome
  | 0, g => getoptLong argv optstring longopts g
  | n + 1, g => do
    let o ← getoptLong argv optstring longopts g
    nthCall n o.globals

end

/-! ## Between calls -/

/-- A pointer in front of the NUL of the element that comes next. -/
structure Pending (argv : List CString) (optind : Nat) (p : Ptr) : Prop where
  elem : p.elem = optind
  arg : ∃ arg, argv[optind]? = some arg ∧ p.off < arg.length

def Ready (argv : List CString) (g : Globals) : Prop := ∀ p ∈ g.gPos, Pending argv g.optind p

/-- The position in the short options of the element that comes next. -/
def position (g : Globals) : Nat := g.gPos.elim 0 Ptr.off

/-- The place is a later one. -/
def Advances (g g' : Globals) : Prop :=
  g.optind < g'.optind ∨ (g.optind = g'.optind ∧ position g < position g')

/-- The outcome is ready for the next call, and its place is behind a pointer into the element. -/
structure Forward (argv : List CString) (g : Globals) (p : Ptr) (o : Outcome) : Prop where
  ready : Ready argv o.globals
  behind : g.optind < o.globals.optind ∨ (g.optind = o.globals.optind ∧ p.off < position o.globals)

/-- A call ends the options, or goes on to a later place. -/
structure Step (argv : List CString) (g : Globals) (o : Outcome) : Prop where
  ready : Ready argv o.globals
  ends_or_advances : o.ret = -1 ∨ (g.optind < argv.length ∧ Advances g o.globals)

/-- A call is defined, with an outcome of a kind. -/
def Defined (kind : Outcome → Prop) (call : Option Outcome) : Prop := ∃ o, call = some o ∧ kind o

theorem defined_bind {kind : Outcome → Prop} {α : Type} {x : Option α} {f : α → Option Outcome}
    (hx : ∃ a, x = some a) (h : ∀ a, x = some a → Defined kind (f a)) : Defined kind (x >>= f) := by
  obtain ⟨a, ha⟩ := hx
  rw [ha]
  exact h a ha

section

variable {argv : List CString} {optstring : Option CString} {g : Globals} {p : Ptr} {arg : CString}

theorem ready_of_none (h : g.gPos = none) : Ready argv g := fun p hp => by
  rw [h] at hp
  cases hp

/-- Nothing is left of the element. -/
theorem forward_of_none {o : Outcome} (hpos : o.globals.gPos = none) (hlt : g.optind < o.globals.optind) :
    Defined (Forward argv g p) (some o) :=
  ⟨o, rfl, ready_of_none hpos, .inl hlt⟩

theorem forward_fail (optopt ret : Int) (message : List UInt8) :
    Defined (Forward argv g p) (some (fail g optopt ret message)) :=
  forward_of_none rfl (Nat.lt_succ_self _)

theorem exists_missingArgument (optstring : Option CString) : ∃ ret, missingArgument optstring = some ret := by
  cases optstring with
  | none => exact ⟨_, rfl⟩
  | some s =>
    obtain ⟨c, hc⟩ := s.exists_read (Nat.zero_le _)
    exact ⟨_, by rw [missingArgument, hc, Option.map_some]⟩

/-- The element behind an option. -/
theorem exists_next (h : g.optind + 1 < argv.length) : ∃ next, argv[g.optind + 1]? = some next :=
  ⟨_, List.getElem?_eq_getElem h⟩

theorem forward_longArgument (eq : Option Nat) (idx : Nat) (lo : LongOption) :
    Defined (Forward argv g p) (longArgument argv optstring g p eq idx lo) := by
  unfold longArgument
  split
  · cases eq with
    | some e => exact forward_of_none rfl (Nat.lt_succ_self _)
    | none =>
      dsimp only
      split
      · rename_i hnext
        exact defined_bind (exists_next hnext) fun _ _ =>
          forward_of_none rfl (Nat.lt_succ_of_lt (Nat.lt_succ_self _))
      · exact defined_bind (exists_missingArgument optstring) fun _ _ => forward_of_none rfl (Nat.lt_succ_self _)
  · split
    · exact forward_of_none rfl (Nat.lt_succ_self _)
    · split
      · exact forward_of_none rfl (Nat.lt_succ_self _)
      · exact forward_of_none rfl (Nat.lt_succ_self _)

theorem exists_findLong {name : Nat} (h : name ≤ arg.length) (namelen i : Nat) (found : Option (Nat × LongOption))
    (ambiguous : Bool) (longopts : List LongOption) :
    ∃ r, findLong arg name namelen i found ambiguous longopts = some r := by
  induction longopts generalizing i found ambiguous with
  | nil => exact ⟨_, rfl⟩
  | cons o longopts ih =>
    obtain ⟨same, hsame⟩ := CString.exists_strncmpEq h o.name namelen
    rw [findLong, hsame]
    dsimp only [Option.bind_eq_bind, Option.bind_some]
    split
    · exact ih _ _ _
    · split
      · exact ⟨_, rfl⟩
      · split
        · exact ih _ _ _
        · exact ih _ _ _

theorem exists_nameLength {name : Nat} (h : name ≤ arg.length) (eq : Option Nat) :
    ∃ namelen, nameLength arg name eq = some namelen := by
  cases eq with
  | some e => exact ⟨_, rfl⟩
  | none => exact ⟨_, CString.strlen_eq h⟩

/-- The element of a pointer, and the byte there. -/
theorem Pending.read (h : Pending argv g.optind p) :
    ∃ arg c, argv[p.elem]? = some arg ∧ p.off < arg.length ∧ arg.read p.off = some c ∧ c ≠ 0 := by
  obtain ⟨arg, harg, hoff⟩ := h.arg
  obtain ⟨c, hc⟩ := CString.exists_read (Nat.le_of_lt hoff)
  exact ⟨arg, c, by rw [h.elem, harg], hoff, hc, mt (CString.read_zero_iff hc).1 (Nat.ne_of_lt hoff)⟩

theorem forward_longOption (hp : Pending argv g.optind p) (longopts : List LongOption) :
    Defined (Forward argv g p) (longOption argv optstring g p longopts) := by
  obtain ⟨arg, c, harg, hoff, -, -⟩ := hp.read
  have hname : p.off + 1 ≤ arg.length := hoff
  unfold longOption
  refine defined_bind ⟨arg, harg⟩ fun arg' harg' => ?_
  cases harg.symm.trans harg'
  refine defined_bind (CString.exists_strchr hname _) fun eq _ => ?_
  refine defined_bind (exists_nameLength hname eq) fun namelen _ => ?_
  refine defined_bind (exists_findLong hname namelen 0 none false longopts) fun found _ => ?_
  cases found with
  | option idx lo => exact forward_longArgument eq idx lo
  | missing => exact forward_fail _ _ _
  | ambiguous => exact forward_fail _ _ _

theorem forward_shortArgument (hp : Pending argv g.optind p) (harg : argv[p.elem]? = some arg)
    (hoff : p.off < arg.length) (c behind : UInt8) :
    Defined (Forward argv g p) (shortArgument argv optstring g p arg c behind) := by
  unfold shortArgument
  refine defined_bind (CString.exists_read (Nat.succ_le_of_lt hoff)) fun following hfollowing => ?_
  split
  · split
    · exact forward_of_none rfl (Nat.lt_succ_self _)
    · split
      · rename_i hnext
        exact defined_bind (exists_next hnext) fun _ _ =>
          forward_of_none rfl (Nat.lt_succ_of_lt (Nat.lt_succ_self _))
      · exact defined_bind (exists_missingArgument optstring) fun _ _ => forward_fail _ _ _
  · split
    · exact forward_of_none rfl (Nat.lt_succ_self _)
    · -- the next of the bundled options
      rename_i hmore
      refine ⟨_, rfl, ?_, .inr ⟨rfl, Nat.lt_succ_self _⟩⟩
      rintro _ ⟨⟩
      exact ⟨hp.elem, arg, by rw [← harg, hp.elem], CString.lt_of_read hfollowing hmore⟩

theorem forward_shortOption (hp : Pending argv g.optind p) :
    Defined (Forward argv g p) (shortOption argv optstring g p) := by
  obtain ⟨arg, c, harg, hoff, hc, hne⟩ := hp.read
  unfold shortOption
  refine defined_bind ⟨arg, harg⟩ fun arg' harg' => ?_
  cases harg.symm.trans harg'
  refine defined_bind ⟨c, hc⟩ fun c' hc' => ?_
  cases hc.symm.trans hc'
  cases optstring with
  | none => exact forward_fail _ _ _
  | some s =>
    refine defined_bind (s.exists_strchr (Nat.zero_le _) c) fun found hfound => ?_
    cases found with
    | none => exact forward_fail _ _ _
    | some i =>
      have hi := CString.lt_of_read (CString.strchr_spec hfound).2 hne
      exact defined_bind (CString.exists_read (Nat.succ_le_of_lt hi)) fun behind _ =>
        forward_shortArgument hp harg hoff c behind

variable (longopts : Option (List LongOption))

theorem forward_optionAt (hp : Pending argv g.optind p) :
    Defined (Forward argv g p) (optionAt argv optstring longopts g p) := by
  obtain ⟨arg, c, harg, -, hc, -⟩ := hp.read
  unfold optionAt
  refine defined_bind ⟨arg, harg⟩ fun arg' harg' => ?_
  cases harg.symm.trans harg'
  refine defined_bind ⟨c, hc⟩ fun c' _ => ?_
  cases longopts with
  | none => exact forward_shortOption hp
  | some longopts =>
    dsimp only
    split
    · exact forward_longOption hp longopts
    · exact forward_shortOption hp

/-- The first option of an element. -/
theorem step_startElement (harg : argv[g.optind]? = some arg) (hnone : g.gPos = none) :
    Defined (Step argv g) (startElement argv optstring longopts g arg) := by
  obtain ⟨hlt, -⟩ := List.getElem?_eq_some_iff.1 harg
  have hstop (g' : Globals) (h : g'.gPos = none) : Defined (Step argv g) (some { ret := -1, globals := g' }) :=
    ⟨_, rfl, ready_of_none h, .inl rfl⟩
  unfold startElement
  refine defined_bind (arg.exists_read (Nat.zero_le _)) fun c hc => ?_
  split
  · exact hstop g hnone
  · rename_i hdash
    have hc0 : c ≠ 0 := by
      rw [Decidable.not_not.1 hdash]
      decide
    refine defined_bind (CString.exists_read (Nat.succ_le_of_lt (CString.lt_of_read hc hc0))) fun d hd => ?_
    split
    · exact hstop g hnone
    · rename_i hd0
      have hpending : Pending argv g.optind ⟨g.optind, 1⟩ := ⟨rfl, arg, harg, CString.lt_of_read hd hd0⟩
      have hoption : Defined (Step argv g) (optionAt argv optstring longopts g ⟨g.optind, 1⟩) := by
        obtain ⟨o, ho, hforward⟩ := forward_optionAt longopts hpending
        have hposition : position g = 0 := by rw [position, hnone, Option.elim_none]
        refine ⟨o, ho, hforward.ready, .inr ⟨hlt, hforward.behind.imp_right fun h => ⟨h.1, ?_⟩⟩⟩
        rw [hposition]
        exact Nat.lt_trans Nat.one_pos h.2
      split
      · exact hoption
      · refine defined_bind (CString.exists_read (Nat.succ_le_of_lt (CString.lt_of_read hd hd0))) fun e _ => ?_
        split
        · exact hstop _ hnone
        · exact hoption

theorem step_nextOption (hg : Ready argv g) : Defined (Step argv g) (nextOption argv optstring longopts g) := by
  unfold nextOption
  split
  · exact ⟨_, rfl, hg, .inl rfl⟩
  · rename_i hlt
    rw [ge_iff_le, Nat.not_le] at hlt
    have harg : ∃ arg, argv[g.optind]? = some arg := ⟨_, List.getElem?_eq_getElem hlt⟩
    refine defined_bind harg fun arg harg => ?_
    split
    · rename_i p hpos
      obtain ⟨o, ho, hforward⟩ := forward_optionAt longopts (hg p hpos)
      have hposition : position g = p.off := by rw [position, hpos, Option.elim_some]
      refine ⟨o, ho, hforward.ready, .inr ⟨hlt, ?_⟩⟩
      unfold Advances
      rw [hposition]
      exact hforward.behind
    · rename_i hnone
      exact step_startElement longopts harg hnone

/-- **A call** that is ready is defined, and ends the options or goes on. -/
theorem step_getoptLong (hg : Ready argv g) : Defined (Step argv g) (getoptLong argv optstring longopts g) := by
  obtain ⟨o, ho, hstep⟩ := @step_nextOption argv optstring { g with optarg := none } longopts hg
  exact ⟨o, ho, hstep.ready, hstep.ends_or_advances⟩

/-! ## All calls -/

/-- The bytes of some elements. -/
def size (args : List CString) : Nat := (args.map fun arg => arg.length + 1).sum

/-- What is left of the command line. -/
def left (argv : List CString) (g : Globals) : Nat := size (argv.drop g.optind) - position g

theorem position_le (hg : Ready argv g) (harg : argv[g.optind]? = some arg) : position g ≤ arg.length := by
  unfold position
  cases hpos : g.gPos with
  | none => exact Nat.zero_le _
  | some p =>
    obtain ⟨arg', harg', hoff⟩ := (hg p hpos).arg
    cases harg.symm.trans harg'
    exact Nat.le_of_lt hoff

theorem size_drop {i : Nat} (h : argv[i]? = some arg) :
    size (argv.drop i) = arg.length + 1 + size (argv.drop (i + 1)) := by
  obtain ⟨hlt, rfl⟩ := List.getElem?_eq_some_iff.1 h
  unfold size
  rw [List.drop_eq_getElem_cons hlt, List.map_cons, List.sum_cons]

/-- The elements from a later one on have fewer. -/
theorem size_drop_le {i j : Nat} (h : i ≤ j) : size (argv.drop j) ≤ size (argv.drop i) := by
  obtain ⟨k, rfl⟩ := Nat.exists_eq_add_of_le h
  have hsplit := congrArg size (List.take_append_drop k (argv.drop i))
  unfold size at hsplit ⊢
  rw [List.map_append, List.sum_append_nat, List.drop_drop] at hsplit
  exact hsplit ▸ Nat.le_add_left _ _

theorem left_lt {g' : Globals} (hg : Ready argv g) (hlt : g.optind < argv.length) (hg' : Ready argv g')
    (h : Advances g g') : left argv g' < left argv g := by
  obtain ⟨arg, harg⟩ : ∃ arg, argv[g.optind]? = some arg := ⟨_, List.getElem?_eq_getElem hlt⟩
  have hposition := position_le hg harg
  have hsize := size_drop harg
  unfold left
  rcases h with hoptind | ⟨hoptind, hmore⟩
  · have hfewer : size (argv.drop g'.optind) ≤ size (argv.drop (g.optind + 1)) := size_drop_le hoptind
    omega
  · rw [hoptind] at harg
    have hposition' := position_le hg' harg
    rw [← hoptind]
    omega

/-- The calls end. -/
theorem exists_end (hg : Ready argv g) : ∃ n o, nthCall argv optstring longopts n g = some o ∧ o.ret = -1 := by
  induction hleft : left argv g using Nat.strongRecOn generalizing g with
  | _ m ih =>
    obtain ⟨o, ho, hstep⟩ := @step_getoptLong argv optstring g longopts hg
    rcases hstep.ends_or_advances with hend | ⟨hlt, hadvances⟩
    · exact ⟨0, o, ho, hend⟩
    · have hless := left_lt hg hlt hstep.ready hadvances
      obtain ⟨n, o', ho', hend⟩ := ih _ (hleft ▸ hless) hstep.ready rfl
      refine ⟨n + 1, o', ?_, hend⟩
      rw [nthCall, ho]
      exact ho'

end

/-- The globals after any number of calls. -/
inductive Reachable (argv : List CString) (optstring : Option CString) (longopts : Option (List LongOption))
    (opterr : Bool) : Globals → Prop
  | start : Reachable argv optstring longopts opterr { opterr }
  | call {g : Globals} {o : Outcome} : Reachable argv optstring longopts opterr g →
      getoptLong argv optstring longopts g = some o → Reachable argv optstring longopts opterr o.globals

theorem Reachable.ready {argv : List CString} {optstring : Option CString} {longopts : Option (List LongOption)}
    {opterr : Bool} {g : Globals} (h : Reachable argv optstring longopts opterr g) : Ready argv g := by
  induction h with
  | start => exact ready_of_none rfl
  | call _ hcall ih =>
    obtain ⟨o, ho, hstep⟩ := step_getoptLong longopts ih
    cases hcall.symm.trans ho
    exact hstep.ready

/-- **The calls come to an end.** Every call is defined and returns `-1` or advances, and one of them returns `-1`. -/
theorem getoptLong_spec (argv : List CString) (optstring : Option CString) (longopts : Option (List LongOption))
    (opterr : Bool) :
    (∀ g, Reachable argv optstring longopts opterr g →
        ∃ o, getoptLong argv optstring longopts g = some o ∧ (o.ret = -1 ∨ Advances g o.globals)) ∧
      ∃ n o, nthCall argv optstring longopts n { opterr } = some o ∧ o.ret = -1 := by
  refine ⟨fun g hg => ?_, exists_end longopts (ready_of_none rfl)⟩
  obtain ⟨o, ho, hstep⟩ := step_getoptLong longopts hg.ready
  exact ⟨o, ho, hstep.ends_or_advances.imp_right And.right⟩

end PudimNetMon.Agent.WindowsGetopt
