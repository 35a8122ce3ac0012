/-! The GLib string functions and loudmouth stanza trees the modules are written with.
A `char *` that may be NULL is an `Option String`; a NULL argument behaves as GLib's own
precondition check makes it behave.
-/

namespace McabberJingle

-----------------------------------------------------------------------------------------
-- GLib strings and numbers
-----------------------------------------------------------------------------------------

/-- `g_ascii_tolower` over a whole string: only the ASCII letters change. -/
def asciiLower (s : String) : List Char := s.toList.map Char.toLower

/-- `g_ascii_strcasecmp (s1, s2) == 0`. On a NULL argument GLib logs a critical and
returns 0, so a NULL compares equal to everything.
-/
def gAsciiStrcaseeq : Option String → Option String → Bool
  | some s1, some s2 => asciiLower s1 == asciiLower s2
  | _, _ => true

/-- `g_ascii_strncasecmp (s1, s2, n) == 0`. -/
def gAsciiStrncaseeq (s1 s2 : String) (n : Nat) : Bool :=
  (asciiLower s1).take n == (asciiLower s2).take n

def gAsciiIsspace (c : Char) : Bool :=
  c == ' ' || c == '\t' || c == '\n' || c == '\r' || c == '\x0b' || c == '\x0c'

/-- The value of the leading decimal digits, continuing from `acc`. -/
def leadingDigits : List Char → Nat → Nat
  | [], acc => acc
  | c :: rest, acc =>
      if c.isDigit then leadingDigits rest (acc * 10 + (c.toNat - '0'.toNat)) else acc

def G_MAXINT64 : Int := 0x7fffffffffffffff
def G_MININT64 : Int := -0x8000000000000000

/-- What `g_ascii_strtoll` and `g_ascii_strtoull` return for NULL. GLib does not document it: this
is an assumption, that the guard `g_return_val_if_fail (nptr != NULL, 0)` of GLib's own parser is
compiled in. Where GLib maps the two to `strtoll_l` and `strtoull_l`, NULL crashes instead.
-/
def guardedNull : Nat := 0

/-- `g_ascii_strtoll (nptr, NULL, 10)`: blanks, an optional sign, then digits; out of
range values saturate, and a string without digits gives 0.
-/
def gAsciiStrtoll : Option String → Int
  | none => guardedNull
  | some nptr =>
      match nptr.toList.dropWhile gAsciiIsspace with
      | '-' :: digits => max (-(leadingDigits digits 0 : Int)) G_MININT64
      | '+' :: digits => min (leadingDigits digits 0 : Int) G_MAXINT64
      | digits => min (leadingDigits digits 0 : Int) G_MAXINT64

/-- Digits alone are read to their end. -/
theorem leadingDigits_eq {digits : List Char} (all : ∀ c ∈ digits, c.isDigit = true) (acc : Nat)
    : leadingDigits digits acc = Nat.ofDigitChars 10 digits acc := by
  induction digits generalizing acc with
  | nil => simp [leadingDigits]
  | cons c rest ih =>
      have first := all c List.mem_cons_self
      have later := ih (fun c member => all c (List.mem_cons_of_mem _ member))
      rw [leadingDigits, if_pos first, later, Nat.ofDigitChars_cons, Nat.mul_comm]

theorem isspace_of_isDigit {c : Char} (digit : c.isDigit = true) : gAsciiIsspace c = false := by
  cases space : gAsciiIsspace c with
  | false => rfl
  | true =>
      simp only [gAsciiIsspace, Bool.or_eq_true, beq_iff_eq] at space
      obtain ((((rfl | rfl) | rfl) | rfl) | rfl) | rfl := space <;> cases digit

/-- A printed number starts with a digit and is the value of its digits. -/
theorem toString_digits (n : Nat)
    : ∃ c rest, (toString n).toList.dropWhile gAsciiIsspace = c :: rest ∧ c.isDigit = true
        ∧ leadingDigits (c :: rest) 0 = n := by
  have digits : (toString n).toList = Nat.toDigits 10 n := Nat.toList_repr
  have all : ∀ c ∈ Nat.toDigits 10 n, c.isDigit = true := fun c member =>
    Nat.isDigit_of_mem_toDigits (by decide) (by decide) member
  have value : leadingDigits (Nat.toDigits 10 n) 0 = n := by
    rw [leadingDigits_eq all, Nat.ofDigitChars_ten_toDigits]
  rw [digits]
  cases shape : Nat.toDigits 10 n with
  | nil => exact absurd shape Nat.toDigits_ne_nil
  | cons c rest =>
      rw [shape] at all value
      have first := all c List.mem_cons_self
      exact ⟨c, rest, List.dropWhile_cons_of_neg (by simp [isspace_of_isDigit first]), first, value⟩

/-- A number that was printed is read back. -/
theorem gAsciiStrtoll_toString {n : Nat} (small : (n : Int) ≤ G_MAXINT64)
    : gAsciiStrtoll (some (toString n)) = n := by
  obtain ⟨c, rest, shown, digit, value⟩ := toString_digits n
  rw [gAsciiStrtoll, shown]
  split
  · rename_i same
    cases same
    cases digit
  · rename_i same
    cases same
    cases digit
  · rw [value]
    exact Int.min_eq_left small

def G_MAXUINT64 : Nat := 0xffffffffffffffff

/-- `g_ascii_strtoull (nptr, NULL, 10)`: as above, but a minus sign wraps around. A number that is
out of range saturates whatever its sign.
-/
def gAsciiStrtoull : Option String → Nat
  | none => guardedNull
  | some nptr =>
      match nptr.toList.dropWhile gAsciiIsspace with
      | '-' :: digits =>
          if G_MAXUINT64 < leadingDigits digits 0 then
            G_MAXUINT64
          else
            (G_MAXUINT64 + 1 - leadingDigits digits 0) % (G_MAXUINT64 + 1)
      | '+' :: digits => min (leadingDigits digits 0) G_MAXUINT64
      | digits => min (leadingDigits digits 0) G_MAXUINT64

theorem gAsciiStrtoull_toString {n : Nat} (small : n ≤ G_MAXUINT64)
    : gAsciiStrtoull (some (toString n)) = n := by
  obtain ⟨c, rest, shown, digit, value⟩ := toString_digits n
  rw [gAsciiStrtoull, shown]
  split
  · rename_i same
    cases same
    cases digit
  · rename_i same
    cases same
    cases digit
  · rw [value]
    exact Nat.min_eq_left small

def gAsciiIsxdigit (c : Char) : Bool :=
  c.isDigit || ('a' ≤ c && c ≤ 'f') || ('A' ≤ c && c ≤ 'F')

-----------------------------------------------------------------------------------------
-- Loudmouth nodes and messages
-----------------------------------------------------------------------------------------

structure LmMessageNode where
  name : String
  attributes : List (String × String)
  value : Option String
  children : List LmMessageNode

namespace LmMessageNode

/-- `lm_message_node_get_attribute`. -/
def getAttribute (node : LmMessageNode) (key : String) : Option String :=
  (node.attributes.find? (fun entry => entry.1 == key)).map Prod.snd

/-- `lm_message_node_get_child`: the first child with that name. -/
def getChild (node : LmMessageNode) (childName : String) : Option LmMessageNode :=
  node.children.find? (fun child => child.name == childName)

/-- `lm_message_node_set_attribute`: replace the value, or add the attribute. -/
def setAttribute (node : LmMessageNode) (key value : String) : LmMessageNode :=
  if node.attributes.any (fun entry => entry.1 == key) then
    { node with
      attributes := node.attributes.map
        (fun entry => if entry.1 == key then (key, value) else entry) }
  else
    { node with attributes := node.attributes ++ [(key, value)] }

/-- `lm_message_node_set_attribute` with a NULL value adds nothing. -/
def setOptional (node : LmMessageNode) (key : String) : Option String → LmMessageNode
  | none => node
  | some value => node.setAttribute key value

/-- `lm_message_node_add_child`: the finished child goes to the end. -/
def addChild (node child : LmMessageNode) : LmMessageNode :=
  { node with children := node.children ++ [child] }

/-- An attribute that was set has its value. -/
theorem getAttribute_setAttribute (node : LmMessageNode) (key value : String)
    : (node.setAttribute key value).getAttribute key = some value := by
  have replaced (entries : List (String × String))
      (there : entries.any (fun entry => entry.1 == key) = true)
      : (entries.map (fun entry => if entry.1 == key then (key, value) else entry)).find?
          (fun entry => entry.1 == key) = some (key, value) := by
    induction entries with
    | nil => cases there
    | cons first rest ih =>
        cases here : first.1 == key with
        | true =>
            rw [List.map_cons, here, if_pos rfl]
            exact List.find?_cons_of_pos (beq_self_eq_true key)
        | false =>
            rw [List.any_cons, here, Bool.false_or] at there
            rw [List.map_cons, here, if_neg Bool.false_ne_true,
              List.find?_cons_of_neg (by simp [here]), ih there]
  unfold setAttribute getAttribute
  split
  · rename_i there
    rw [replaced node.attributes there]
    rfl
  · rename_i absent
    have missing : node.attributes.find? (fun entry => entry.1 == key) = none := by
      refine List.find?_eq_none.mpr (fun entry member same => absent ?_)
      exact List.any_eq_true.mpr ⟨entry, member, same⟩
    simp [List.find?_append, missing]

/-- The other attributes stay. -/
theorem getAttribute_setAttribute_of_ne (node : LmMessageNode) {key other : String}
    (apart : other ≠ key) (value : String)
    : (node.setAttribute key value).getAttribute other = node.getAttribute other := by
  have passed : (key == other) = false := beq_eq_false_iff_ne.mpr (Ne.symm apart)
  have kept (entries : List (String × String))
      : (entries.map (fun entry => if entry.1 == key then (key, value) else entry)).find?
          (fun entry => entry.1 == other)
        = entries.find? (fun entry => entry.1 == other) := by
    induction entries with
    | nil => rfl
    | cons first rest ih =>
        rw [List.map_cons, List.find?_cons, List.find?_cons, ih]
        by_cases here : first.1 = key
        · simp [here, passed]
        · simp [here]
  unfold setAttribute getAttribute
  split
  · rw [kept]
  · simp [List.find?_append, passed]

theorem children_setAttribute (node : LmMessageNode) (key value : String)
    : (node.setAttribute key value).children = node.children := by
  unfold setAttribute
  split <;> rfl

theorem name_setAttribute (node : LmMessageNode) (key value : String)
    : (node.setAttribute key value).name = node.name := by
  unfold setAttribute
  split <;> rfl

theorem name_setOptional (node : LmMessageNode) (key : String) (value : Option String)
    : (node.setOptional key value).name = node.name := by
  cases value with
  | none => rfl
  | some value => exact name_setAttribute node key value

/-- An attribute that was not there has the value it is given, if any. -/
theorem getAttribute_setOptional (node : LmMessageNode) {key : String}
    (absent : node.getAttribute key = none) (value : Option String)
    : (node.setOptional key value).getAttribute key = value := by
  cases value with
  | none => exact absent
  | some value => exact getAttribute_setAttribute node key value

theorem getAttribute_setOptional_of_ne (node : LmMessageNode) {key other : String}
    (apart : other ≠ key) (value : Option String)
    : (node.setOptional key value).getAttribute other = node.getAttribute other := by
  cases value with
  | none => rfl
  | some value => exact getAttribute_setAttribute_of_ne node apart value

end LmMessageNode

/-- A node with attributes and children but no text. -/
def element (name : String) (attributes : List (String × String))
    (children : List LmMessageNode)
    : LmMessageNode :=
  { name, attributes, value := none, children }

/-- A node with attributes and text. -/
def textElement (name : String) (attributes : List (String × String))
    (value : Option String)
    : LmMessageNode :=
  { name, attributes, value, children := [] }

inductive LmMessageSubType where
  | get | set | result | error | other
  deriving DecidableEq

/-- An IQ: its subtype and the root `<iq/>` node with `from`, `to` and `id`. -/
structure LmMessage where
  subType : LmMessageSubType
  node : LmMessageNode

namespace LmMessage

/-- `lm_message_get_from`. -/
def getFrom (m : LmMessage) : Option String := m.node.getAttribute "from"

/-- The `to` attribute of the root node. -/
def getTo (m : LmMessage) : Option String := m.node.getAttribute "to"

/-- `lm_message_new_with_sub_type (recipient, LM_MESSAGE_TYPE_IQ, subType)`. -/
def newWithSubType (recipient : Option String) (subType : LmMessageSubType) : LmMessage :=
  { subType, node := (element "iq" [] []).setOptional "to" recipient }

def addChild (m : LmMessage) (child : LmMessageNode) : LmMessage :=
  { m with node := m.node.addChild child }

/-- mcabber's `lm_message_new_iq_from_query`: back to the sender under the same id. -/
def newIqFromQuery (m : LmMessage) (subType : LmMessageSubType) : LmMessage :=
  let r := newWithSubType m.getFrom subType
  { r with node := r.node.setOptional "id" (m.node.getAttribute "id") }

@[simp]
theorem getTo_addChild (m : LmMessage) (child : LmMessageNode)
    : (m.addChild child).getTo = m.getTo :=
  rfl

@[simp]
theorem getTo_newWithSubType (recipient : Option String) (subType : LmMessageSubType)
    : (newWithSubType recipient subType).getTo = recipient := by
  cases recipient <;> rfl

@[simp]
theorem children_newWithSubType (recipient : Option String) (subType : LmMessageSubType)
    : (newWithSubType recipient subType).node.children = [] := by
  cases recipient <;> rfl

@[simp]
theorem children_addChild (m : LmMessage) (child : LmMessageNode)
    : (m.addChild child).node.children = m.node.children ++ [child] :=
  rfl

end LmMessage

end McabberJingle
