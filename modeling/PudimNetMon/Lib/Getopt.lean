import PudimNetMon.Lib.Separated

/-!
# GNU `getopt_long`

The elements of a command line are read from the left. An option in one of them can have its argument in the next one,
whatever that is; operands are passed over, and behind `--` (or behind the first operand, if `POSIXLY_CORRECT` is set)
no element is read any more. A long option can be shortened as long as its beginning is that of one option.

- `returnedAt`, `next`: what an element returns, and where the reading goes on behind it;
- `getoptLong`: what all calls return.
-/

namespace PudimNetMon.Getopt

/-- `struct option`, for options with a required argument or none. -/
structure LongOption where
  name : String
  hasArg : Bool
  val : Nat
  deriving DecidableEq

/-- The options of a program; an option character of `optstring` is its own value. -/
structure Table where
  optstring : String
  longOptions : List LongOption
  posixlyCorrect : Bool := false

/-- What a call returns: an option with its argument, or `'?'`. -/
inductive Returned
  | opt (val : Nat) (optarg : Option String)
  | unknown
  deriving DecidableEq

/-! ## Elements -/

/-- An element in front of which no option wants an argument. -/
inductive Element
  | terminator
  | operand
  /-- What it returns, and the option that has its argument in the next element. -/
  | options (returned : List Returned) (wanting : Option Nat)
  deriving DecidableEq

/-- The option of a name: the one that has it, or the only one that begins with it. -/
def findLong (longOptions : List LongOption) (name : List Char) : Option LongOption :=
  match longOptions.find? fun o => o.name.toList = name with
  | some o => some o
  | none =>
    match longOptions.filter fun o => name.isPrefixOf o.name.toList with
    | o :: others => if others.all fun p => p.hasArg = o.hasArg && p.val = o.val then some o else none
    | [] => none

/-- Whether an option character has an argument; none if it is no option. -/
def shortHasArg (optstring : List Char) (c : Char) : Option Bool :=
  match optstring with
  | [] => none
  | o :: rest =>
    if c = ':' ∨ c = ';' then none
    else if o = c then some (rest.head? = some ':')
    else shortHasArg rest c

section

variable (t : Table)

/-- An element `--name` or `--name=value`. -/
def readLong (text : List Char) : Element :=
  match findLong t.longOptions (text.takeWhile (· ≠ '=')), cut '=' text with
  | none, _ => .options [.unknown] none
  | some o, some (_, value) =>
    .options [if o.hasArg then .opt o.val (some (String.ofList value)) else .unknown] none
  | some o, none => if o.hasArg then .options [] (some o.val) else .options [.opt o.val none] none

/-- The option characters of an element. -/
def readShort : List Char → List Returned × Option Nat
  | [] => ([], none)
  | c :: cs =>
    match shortHasArg t.optstring.toList c with
    | none => (.unknown :: (readShort cs).1, (readShort cs).2)
    | some false => (.opt c.toNat none :: (readShort cs).1, (readShort cs).2)
    | some true => if cs.isEmpty then ([], some c.toNat) else ([.opt c.toNat (some (String.ofList cs))], none)

def readElement (arg : String) : Element :=
  match arg.toList with
  | ['-', '-'] => .terminator
  | '-' :: '-' :: text => readLong t text
  | '-' :: c :: cs => .options (readShort t (c :: cs)).1 (readShort t (c :: cs)).2
  | _ => .operand

/-! ## Command lines -/

/-- Where the reading is: in front of an element, in front of the argument of an option, or at its end. -/
inductive Place
  | fresh
  | argument (val : Nat)
  | stopped
  deriving DecidableEq

def returnedAt : Place → String → List Returned
  | .fresh, arg =>
    match readElement t arg with
    | .options returned _ => returned
    | .terminator | .operand => []
  | .argument val, arg => [.opt val (some arg)]
  | .stopped, _ => []

def next : Place → String → Place
  | .fresh, arg =>
    match readElement t arg with
    | .terminator => .stopped
    | .operand => if t.posixlyCorrect then .stopped else .fresh
    | .options _ (some val) => .argument val
    | .options _ none => .fresh
  | .argument _, _ => .fresh
  | .stopped, _ => .stopped

/-- What the calls from a place on return. -/
def getoptFrom : Place → List String → List Returned
  | p, arg :: args => returnedAt t p arg ++ getoptFrom (next t p arg) args
  | .argument _, [] => [.unknown]
  | .fresh, [] | .stopped, [] => []

def getoptLong (args : List String) : List Returned := getoptFrom t .fresh args

end

/-! ## Arguments in the element of their option -/

section

variable {t : Table} {val : Nat} {v : String}

theorem readElement_long {arg : String} {text : List Char} (h : arg.toList = '-' :: '-' :: text)
    (hne : text ≠ []) : readElement t arg = readLong t text := by
  obtain ⟨c, cs, rfl⟩ := List.exists_cons_of_ne_nil hne
  unfold readElement
  rw [h]
  rfl

/-- A long option with its argument behind the first `=`. -/
theorem readLong_value {name : List Char} {o : LongOption} (hname : '=' ∉ name)
    (ho : findLong t.longOptions name = some o) (value : List Char) :
    readLong t (name ++ '=' :: value) =
      .options [if o.hasArg then .opt o.val (some (String.ofList value)) else .unknown] none := by
  have htake : (name ++ '=' :: value).takeWhile (· ≠ '=') = name := by
    have hall (c : Char) (hc : c ∈ name) : decide (c ≠ '=') = true :=
      decide_eq_true fun heq => hname (by rwa [← heq])
    rw [List.takeWhile_append_of_pos hall, List.takeWhile_cons_of_neg (by decide), List.append_nil]
  unfold readLong
  rw [htake, ho, cut_append hname]

theorem length_lt_of_readShort {cs : List Char} (h : .opt val (some v) ∈ (readShort t cs).1) :
    v.length < cs.length := by
  induction cs with
  | nil => cases h
  | cons c cs ih =>
    have hrest (h : .opt val (some v) ∈ (readShort t cs).1) : v.length < (c :: cs).length :=
      Nat.lt_succ_of_lt (ih h)
    rw [readShort] at h
    split at h
    · rcases List.mem_cons.1 h with heq | h
      · cases heq
      · exact hrest h
    · rcases List.mem_cons.1 h with heq | h
      · cases heq
      · exact hrest h
    · split at h
      · cases h
      · cases List.mem_singleton.1 h
        rw [String.length_ofList]
        exact Nat.lt_succ_self _

theorem length_lt_of_readLong {text : List Char} {returned : List Returned} {wanting : Option Nat}
    (h : readLong t text = .options returned wanting) (hv : .opt val (some v) ∈ returned) :
    v.length < text.length := by
  unfold readLong at h
  split at h
  · cases h
    cases List.mem_singleton.1 hv
  · rename_i o name value _ hcut
    cases h
    have heq := List.mem_singleton.1 hv
    split at heq
    · cases heq
      rw [String.length_ofList, append_of_cut hcut, List.length_append, List.length_cons]
      omega
    · cases heq
  · split at h
    · cases h
      cases hv
    · cases h
      cases List.mem_singleton.1 hv

/-- An argument in the element of its option is shorter than the element. -/
theorem length_lt_of_returnedAt {arg : String} (h : .opt val (some v) ∈ returnedAt t .fresh arg) :
    v.length < arg.length := by
  unfold returnedAt at h
  dsimp only at h
  rw [← String.length_toList (s := arg)]
  split at h
  · rename_i returned wanting hread
    unfold readElement at hread
    split at hread
    · cases hread
    · rename_i text _ hchars
      rw [hchars, List.length_cons, List.length_cons]
      exact Nat.lt_succ_of_lt (Nat.lt_succ_of_lt (length_lt_of_readLong hread h))
    · rename_i c cs _ hchars
      cases hread
      rw [hchars, List.length_cons]
      exact Nat.lt_succ_of_lt (length_lt_of_readShort h)
    · cases hread
  · cases h
  · cases h

end

end PudimNetMon.Getopt
