import ElementAgent.CommandLine.Reading
import ElementAgent.CommandLine.Writing
import ElementAgent.Proofs.Text.Integer
import ElementAgent.Proofs.Text.Utf8
import Mathlib.Data.List.TakeWhile

/-!
# Command lines say what they spell

Main statement (`ofWords_words`): the words that spell a command are read as that
command, in whatever order its options stand and however each of them is written.
Between two options the reader has exactly the values of the options it has passed
(`OptionReader.Has`), the last of which it may not have looked at yet.
-/

namespace ElementAgent

variable {c : Command} {k : Key} {ks : List Key} {word : Word} {words : List Word}
  {r : OptionReader}

/-! ## Words by their looks -/

namespace Token

/-- A word that does not start with a hyphen is a plain word. -/
theorem ofWord_plain {word : Word} (plain : word.head? ≠ some 0x2D) :
    ofWord word = .plain word := by
  unfold ofWord
  split
  case h_1 | h_2 | h_4 => exact absurd rfl plain
  case h_3 => rfl
  case h_5 => rfl

/-- A hyphen and something else than a hyphen behind it is a cluster. -/
theorem ofWord_short {b : UInt8} {cluster : Word} (other : b ≠ 0x2D) :
    ofWord (0x2D :: b :: cluster) = .short (b :: cluster) := by
  unfold ofWord
  split
  case h_1 same | h_2 same =>
      simp only [List.cons.injEq] at same
      exact absurd same.2.1 other
  case h_3 same => simp at same
  case h_4 same => rw [(List.cons.inj same).2]
  case h_5 same => exact absurd rfl (same _)

/-- Two hyphens and something behind them are a long option. -/
theorem ofWord_long {rest : Word} (more : rest ≠ []) :
    ofWord (0x2D :: 0x2D :: rest) =
      .long (Text.Utf8.decodeLossy (rest.takeWhile (· ≠ 0x3D)))
        (rest.dropWhile (· ≠ 0x3D)).tail? := by
  unfold ofWord
  split
  case h_1 same =>
      simp only [List.cons.injEq, true_and] at same
      exact absurd same more
  case h_2 same =>
      simp only [List.cons.injEq, true_and] at same
      rw [← same]
      split
      case h_1 none => rw [none, List.tail?_nil]
      case h_2 some => rw [some, List.tail?_cons]
  case h_3 same => simp at same
  case h_4 no _ same => exact absurd (List.cons.inj same).2.symm (no rest)
  case h_5 no _ _ => exact absurd rfl (no rest)

variable {name : Word}

/-- A name and a value with an equals sign between them. The value may
have more of them. -/
theorem ofWord_joined (clean : ∀ b ∈ name, b ≠ 0x3D) (value : Word) :
    ofWord (0x2D :: 0x2D :: (name ++ 0x3D :: value)) =
      .long (Text.Utf8.decodeLossy name) (some value) := by
  have all : ∀ b ∈ name, decide (b ≠ 0x3D) = true :=
    fun b listed => decide_eq_true (clean b listed)
  rw [ofWord_long (by simp), List.takeWhile_append_of_pos all,
    List.dropWhile_append_of_pos all]
  simp

theorem ofWord_bare (some_name : name ≠ []) (clean : ∀ b ∈ name, b ≠ 0x3D) :
    ofWord (0x2D :: 0x2D :: name) = .long (Text.Utf8.decodeLossy name) none := by
  have all : ∀ b ∈ name, decide (b ≠ 0x3D) = true :=
    fun b listed => decide_eq_true (clean b listed)
  rw [ofWord_long some_name, List.takeWhile_eq_self_iff.mpr all,
    List.dropWhile_eq_nil_iff.mpr all]
  rfl

end Token

/-! ## Numbers -/

/-- A digit is spelled by a byte that is one. -/
theorem exists_encodeChar_of_isDigit {d : Char} (digit : d.isDigit = true) :
    ∃ b, String.utf8EncodeChar d = [b] ∧ 0x30 ≤ b ∧ b ≤ 0x39 := by
  simp only [Char.isDigit, Bool.and_eq_true, decide_eq_true_eq, ge_iff_le,
    UInt32.le_iff_toNat_le] at digit
  have low : 0x30 ≤ d.val.toNat := digit.1
  have high : d.val.toNat ≤ 0x39 := digit.2
  refine ⟨UInt8.ofNat d.val.toNat, ?_, ?_, ?_⟩
  · unfold String.utf8EncodeChar
    rw [if_pos (by omega)]
  · rw [UInt8.le_iff_toNat_le, Text.Utf8.toNat_byte (by omega)]
    exact low
  · rw [UInt8.le_iff_toNat_le, Text.Utf8.toNat_byte (by omega)]
    exact high

/-- The bytes of a number. -/
theorem digits_of_repr (n : Nat) :
    ∀ b ∈ Text.Utf8.encode n.repr, (0x30 : UInt8) ≤ b ∧ b ≤ 0x39 := by
  intro b listed
  obtain ⟨d, of_text, of_char⟩ := List.mem_flatMap.mp listed
  rw [Nat.toList_repr] at of_text
  obtain ⟨b', spelled, bounds⟩ :=
    exists_encodeChar_of_isDigit (Text.isDigit_of_mem_toDigits d of_text)
  rw [spelled, List.mem_singleton] at of_char
  rwa [of_char]

theorem isNumeral_repr (n : Nat) : isNumeral (Text.Utf8.encode n.repr) = true := by
  have bytes : ∀ b ∈ Text.Utf8.encode n.repr,
      (decide (0x30 ≤ b) && decide (b ≤ 0x39)) = true := by
    intro b listed
    simpa using digits_of_repr n b listed
  rw [isNumeral, List.dropWhile_eq_nil_iff.mpr bytes]

/-- A number starts with a digit. -/
theorem exists_encode_repr (n : Nat) :
    ∃ b bs, Text.Utf8.encode n.repr = b :: bs ∧ b ≠ 0x2D := by
  cases bytes : Text.Utf8.encode n.repr with
  | nil =>
      obtain ⟨d, ds, digits, digit⟩ := Text.exists_toDigits_eq_cons n
      obtain ⟨b, spelled, -⟩ := exists_encodeChar_of_isDigit digit
      rw [Text.Utf8.encode, Nat.toList_repr, digits, List.flatMap_cons,
        spelled] at bytes
      cases bytes
  | cons b bs =>
      have digit := digits_of_repr n b (by rw [bytes]; exact List.mem_cons_self)
      refine ⟨b, bs, rfl, ?_⟩
      rintro rfl
      exact absurd digit.1 (by decide)

/-! ## Values of options -/

namespace Draft

theorem readText_encode (s : String) : readText (Text.Utf8.encode s) = .ok s := by
  rw [readText, Text.Utf8.decode_encode]

theorem readCount_toString (k : Key) (n : UInt64) :
    readCount k (Text.Utf8.encode (toString n.toNat)) = .ok n := by
  have small : n.toNat < 2 ^ 64 := n.toNat_lt
  have value : Text.readInteger 0 0xffffffffffffffff (toString n.toNat).toList =
      .ok (n.toNat : Int) :=
    Text.readInteger_toString (i := n.toNat) (by omega) (by omega)
  rw [readCount, readText_encode]
  dsimp only [bind, Except.bind]
  rw [value]
  simp only [Int.toNat_natCast, UInt64.ofNat_toNat]

theorem readPid_toString (k : Key) (p : Pid) :
    readPid k (Text.Utf8.encode (toString p.toInt)) = .ok p := by
  have low := p.le_toInt
  have high := p.toInt_lt
  have value : Text.readInteger (-0x8000000000000000) 0x7fffffffffffffff
      (toString p.toInt).toList = .ok p.toInt :=
    Text.readInteger_toString (by omega) (by omega)
  rw [readPid, readText_encode]
  dsimp only [bind, Except.bind]
  rw [value]
  simp only [if_pos (show -0x80000000 ≤ p.toInt ∧ p.toInt ≤ 0x7fffffff by omega),
    Int32.ofInt_toInt]

/-- The draft that has the values of these options of a command. -/
def of (c : Command) (ks : List Key) : Draft :=
  let among {α : Type} (k : Key) (a : Option α) : Option α :=
    if k ∈ ks then a else none
  match c with
  | .serve o =>
    { empty with
      socket := among .socket o.socket
      replyTimeout := among .replyTimeout (some o.replyTimeout)
      bundlePrefix := among .bundlePrefix (some o.bundlePrefix)
      maxInFlight := among .maxInFlight (some o.maxInFlight) }
  | .lookup o =>
    { empty with
      pid := among .pid (some o.pid)
      socket := among .socket o.socket
      timeout := among .timeout (some o.timeout) }
  | .health o =>
    { empty with
      socket := among .socket o.socket
      timeout := among .timeout (some o.timeout) }

theorem of_nil (c : Command) : of c [] = empty := by
  cases c <;> rfl

theorem has_of (new : k ∉ ks) : (of c ks).has k = false := by
  cases c <;> cases k <;> simp [of, has, empty, new]

theorem readPath_of_ne_nil (k : Key) (some_byte : word ≠ []) :
    readPath k word = .ok word := by
  rw [readPath, if_neg (by simpa using some_byte)]

/-- An option that is not in the draft yet is entered with its value. -/
theorem enter_of (path : c.socket ≠ some []) (new : k ∉ ks)
    (value : c.value? k = some word) :
    (of c ks).enter k word = .ok (of c (k :: ks)) := by
  unfold enter
  rw [has_of new, if_neg Bool.false_ne_true]
  -- one case for each kind of value
  cases c <;> cases k
  case serve.socket o | lookup.socket o | health.socket o =>
      have socket : o.socket = some word := value
      have some_byte : word ≠ [] := by
        rintro rfl
        exact path socket
      dsimp only
      rw [readPath_of_ne_nil _ some_byte]
      refine congrArg Except.ok ?_
      simp [of, socket]
  case serve.replyTimeout o | serve.maxInFlight o | lookup.timeout
    o | health.timeout o =>
      cases value
      dsimp only
      rw [readCount_toString]
      refine congrArg Except.ok ?_
      simp [of]
  case serve.bundlePrefix o =>
      cases value
      dsimp only
      rw [readText_encode]
      refine congrArg Except.ok ?_
      simp [of]
  case lookup.pid o =>
      cases value
      dsimp only
      rw [readPid_toString]
      refine congrArg Except.ok ?_
      simp [of]
  -- the command has no such option
  all_goals cases value

/-- A value that is missing only where it is the usual one. -/
theorem getD_among {α : Type} {a usual : α} (same : k ∉ ks → a = usual) :
    (if k ∈ ks then some a else none).getD usual = a := by
  by_cases listed : k ∈ ks
  · rw [if_pos listed, Option.getD_some]
  · rw [if_neg listed, Option.getD_none, same listed]

/-- A socket that is missing only where none is named. -/
theorem socket_among {socket : Option Path} (same : k ∉ ks → socket = none) :
    (if k ∈ ks then socket else none) = socket := by
  by_cases listed : k ∈ ks
  · rw [if_pos listed]
  · rw [if_neg listed, same listed]

/-- The draft of a command in which no unusual value is missing
describes the command. -/
theorem command_of (complete : ∀ k ∈ c.verb.keys, c.isUsual k = false → k ∈ ks) :
    (of c ks).command c.verb = .ok c := by
  have usual (k : Key) (listed : k ∈ c.verb.keys) (absent : k ∉ ks) : c.isUsual k =
      true := by
    by_contra unusual
    exact absent (complete k listed (Bool.eq_false_iff.mpr unusual))
  cases c with
  | serve o =>
      have usual : ∀ k ∈ Verb.serve.keys, k ∉ ks →
          (Command.serve o).isUsual k = true := usual
      have socket := socket_among fun absent =>
        Option.isNone_iff_eq_none.mp (usual .socket (by decide) absent)
      have replyTimeout := getD_among fun absent =>
        of_decide_eq_true (usual .replyTimeout (by decide) absent)
      have bundlePrefix := getD_among fun absent =>
        of_decide_eq_true (usual .bundlePrefix (by decide) absent)
      have maxInFlight := getD_among fun absent =>
        of_decide_eq_true (usual .maxInFlight (by decide) absent)
      simp only [command, of, Command.verb, socket, replyTimeout, bundlePrefix,
        maxInFlight]
  | lookup o =>
      have usual : ∀ k ∈ Verb.lookup.keys, k ∉ ks →
          (Command.lookup o).isUsual k = true := usual
      have pid : Key.pid ∈ ks :=
        complete .pid (show Key.pid ∈ Verb.lookup.keys by decide) rfl
      have socket := socket_among fun absent =>
        Option.isNone_iff_eq_none.mp (usual .socket (by decide) absent)
      have timeout := getD_among fun absent =>
        of_decide_eq_true (usual .timeout (by decide) absent)
      simp only [command, of, Command.verb, if_pos pid, socket, timeout]
  | health o =>
      have usual : ∀ k ∈ Verb.health.keys, k ∉ ks →
          (Command.health o).isUsual k = true := usual
      have socket := socket_among fun absent =>
        Option.isNone_iff_eq_none.mp (usual .socket (by decide) absent)
      have timeout := getD_among fun absent =>
        of_decide_eq_true (usual .timeout (by decide) absent)
      simp only [command, of, Command.verb, socket, timeout]

end Draft

/-! ## Options -/

namespace Key

theorem encode_name (k : Key) :
    Text.Utf8.encode k.name ≠ [] ∧ ∀ b ∈ Text.Utf8.encode k.name, b ≠ 0x3D := by
  have clean : (Text.Utf8.encode k.name).all (· != 0x3D) = true := by
    cases k <;> decide
  refine ⟨by cases k <;> decide, fun b listed => ?_⟩
  simpa using List.all_eq_true.mp clean b listed

theorem ofWord_joined (k : Key) (value : Word) :
    Token.ofWord (Text.Utf8.encode s!"--{k.name}=" ++ value) =
      .long k.name (some value) := by
  have hyphens : Text.Utf8.encode "--" = [0x2D, 0x2D] := by decide
  have equals : Text.Utf8.encode "=" = [0x3D] := by decide
  show Token.ofWord (Text.Utf8.encode ("--" ++ k.name ++ "=") ++ value) = _
  rw [Text.Utf8.encode_append, Text.Utf8.encode_append, hyphens, equals,
    List.append_assoc, List.append_assoc]
  exact (Token.ofWord_joined k.encode_name.2 value).trans
    (by rw [Text.Utf8.decodeLossy_encode])

theorem ofWord_bare (k : Key) :
    Token.ofWord (Text.Utf8.encode s!"--{k.name}") = .long k.name none := by
  have hyphens : Text.Utf8.encode "--" = [0x2D, 0x2D] := by decide
  show Token.ofWord (Text.Utf8.encode ("--" ++ k.name)) = _
  rw [Text.Utf8.encode_append, hyphens]
  exact (Token.ofWord_bare k.encode_name.1 k.encode_name.2).trans
    (by rw [Text.Utf8.decodeLossy_encode])

end Key

/-- A pid may start with a hyphen; then it is a numeral. -/
theorem pid_plain_or_numeral (value : c.value? .pid = some word) :
    word.head? ≠ some 0x2D ∨
    ∃ b bs, word = 0x2D :: b :: bs ∧ b ≠ 0x2D ∧ isNumeral (b :: bs) = true := by
  cases c with
  | serve o | health o => cases value
  | lookup o =>
      cases value
      cases o.pid.toInt with
      | ofNat n =>
          obtain ⟨b, bs, digits, other⟩ := exists_encode_repr n
          left
          show (Text.Utf8.encode n.repr).head? ≠ _
          rw [digits, List.head?_cons]
          exact fun same => other (Option.some.inj same)
      | negSucc n =>
          obtain ⟨b, bs, digits, other⟩ := exists_encode_repr (n + 1)
          have hyphen : Text.Utf8.encode "-" = [0x2D] := by decide
          refine .inr ⟨b, bs, ?_, other,
            by rw [← digits]; exact isNumeral_repr (n + 1)⟩
          show Text.Utf8.encode ("-" ++ (n + 1).repr) = _
          rw [Text.Utf8.encode_append, hyphen, digits]
          rfl

theorem mem_keys_of_value (value : c.value? k = some word) : k ∈ c.verb.keys := by
  cases c <;> cases k <;> simp_all [Command.value?, Command.verb, Verb.keys]

theorem Verb.head?_name (v : Verb) :
    (Text.Utf8.encode v.name).head? ≠ some 0x2D := by
  cases v <;> decide

theorem Verb.ofName?_name (v : Verb) : ofName? v.name = some v := by
  cases v <;> decide

theorem Verb.key?_name (v : Verb) : ∀ k ∈ v.keys, v.key? k.name = some k := by
  cases v <;> decide

namespace OptionReader

/-- Between two options the reader has the values of those it has passed. -/
structure Has (c : Command) (ks : List Key) (r : OptionReader) : Prop where
  verb : r.verb = c.verb
  draft : r.settle = .ok (.of c ks)

/-- A word that is not the mark is a step. -/
theorem read_cons {r r' : OptionReader} {w : Word} (other : Token.ofWord w ≠ .mark)
    (step : r.step (Token.ofWord w) = .ok r') :
    r.read (w :: words) = r'.read words := by
  rw [read, step]
  intro _ _ mark
  exact absurd mark other

theorem Has.start (c : Command) : Has c [] (start c.verb) :=
  ⟨rfl, by rw [Draft.of_nil]; rfl⟩

/-- An option in one word. -/
theorem Has.step_joined (h : Has c ks r) (path : c.socket ≠ some []) (new : k ∉ ks)
    (value : c.value? k = some word) :
    r.step (.long k.name (some word)) =
      .ok { r with draft := .of c (k :: ks), pending := .nothing } := by
  have key : r.verb.key? k.name = some k := by
    rw [h.verb]
    exact c.verb.key?_name k (mem_keys_of_value value)
  unfold step
  dsimp only
  rw [key]
  dsimp only
  rw [h.draft, Except.bind, Draft.enter_of path new value]
  rfl

/-- The first word of an option in two words. -/
theorem Has.step_name (h : Has c ks r) (listed : k ∈ c.verb.keys) :
    r.step (.long k.name none) =
      .ok { r with draft := .of c ks, pending := .awaiting k } := by
  have key : r.verb.key? k.name = some k := by
    rw [h.verb]
    exact c.verb.key?_name k listed
  unfold step
  dsimp only
  rw [key]
  dsimp only
  rw [h.draft]
  rfl

/-- The second word of an option in two words is kept as its value, if it does not
look like an option or is a pid. -/
theorem step_value (awaits : r.pending = .awaiting k)
    (value : c.value? k = some word)
    (clear : k ≠ .pid → word.head? ≠ some 0x2D) :
    Token.ofWord word ≠ .mark ∧
    r.step (Token.ofWord word) = .ok { r with pending := .holding k word } := by
  have plain (starts : word.head? ≠ some 0x2D) : Token.ofWord word ≠ .mark ∧
      r.step (Token.ofWord word) = .ok { r with pending := .holding k word } := by
    rw [Token.ofWord_plain starts]
    refine ⟨nofun, ?_⟩
    unfold step
    dsimp only
    rw [awaits]
  by_cases pid : k = .pid
  · subst pid
    rcases pid_plain_or_numeral value with starts | ⟨b, bs, rfl, other, numeral⟩
    · exact plain starts
    · rw [Token.ofWord_short other]
      refine ⟨nofun, ?_⟩
      unfold step
      dsimp only
      rw [awaits, numeral]
  · exact plain (clear pid)

/-- The words of one option bring its value. -/
theorem Has.option (h : Has c ks r) (path : c.socket ≠ some []) (new : k ∉ ks)
    (value : c.value? k = some word) (style : Style)
    (clear : style = .apart → k ≠ .pid → word.head? ≠ some 0x2D) :
    ∃ r', Has c (k :: ks) r' ∧
      r.read (Spelling.optionWords k word style ++ words) = r'.read words := by
  cases style with
  | joined =>
      have token := k.ofWord_joined word
      refine ⟨{ r with draft := .of c (k :: ks), pending := .nothing },
        ⟨h.verb, rfl⟩, read_cons ?_ ?_⟩
      · rw [token]
        exact nofun
      · rw [token]
        exact h.step_joined path new value
  | apart =>
      have token := k.ofWord_bare
      have first := h.step_name (mem_keys_of_value value)
      obtain ⟨plain, second⟩ := step_value
        (r := { r with draft := .of c ks, pending := .awaiting k }) rfl value
        (clear rfl)
      refine ⟨{ r with draft := .of c ks, pending := .holding k word },
        ⟨h.verb, Draft.enter_of path new value⟩, ?_⟩
      exact (read_cons (by rw [token]; exact nofun)
        (by rw [token]; exact first)).trans (read_cons plain second)

/-- Words that leave no doubt about a command bring its values, one option
after the other. -/
theorem Has.read_words (s : Spelling) (h : Has c ks r) (path : c.socket ≠ some [])
    (once : (s.map Prod.fst ++ ks).Nodup)
    (present : ∀ k style, (k, style) ∈ s → (c.value? k).isSome)
    (clear : ∀ k, (k, Style.apart) ∈ s → k ≠ .pid →
      (c.value? k).bind List.head? ≠ some 0x2D)
    (complete : ∀ k ∈ c.verb.keys, c.isUsual k = false → k ∈ s.map Prod.fst ++ ks) :
    r.read (s.flatMap fun (k, style) =>
      match c.value? k with
      | some value => Spelling.optionWords k value style
      | none => []) = .ok c := by
  induction s generalizing ks r with
  | nil =>
      rw [List.flatMap_nil, read, h.draft, h.verb]
      show (Except.mapError _ ((Draft.of c ks).command c.verb)) = _
      have all : ∀ k ∈ c.verb.keys, c.isUsual k = false → k ∈ ks := complete
      rw [Draft.command_of all]
      rfl
  | cons option s ih =>
      obtain ⟨k, style⟩ := option
      obtain ⟨word, value⟩ :=
        Option.isSome_iff_exists.mp (present k style List.mem_cons_self)
      rw [List.map_cons, List.cons_append, List.nodup_cons] at once
      have new : k ∉ ks := fun listed => once.1 (List.mem_append_right _ listed)
      rw [List.flatMap_cons]
      simp only [value]
      obtain ⟨r', has, same⟩ := h.option path new value style fun apart other => by
        have starts := clear k (by rw [← apart]; exact List.mem_cons_self) other
        rwa [value] at starts
      rw [same]
      refine ih has ?_ (fun k style listed => present k style (.tail _ listed))
        (fun k listed => clear k (.tail _ listed)) ?_
      · exact (List.perm_middle.nodup_iff).mpr (List.nodup_cons.mpr once)
      · intro k listed unusual
        exact List.perm_middle.symm.subset (complete k listed unusual)

end OptionReader

/-! ## Command lines -/

/-- The words that spell a command are read as the command, in whatever order and
style its options are written and whichever usual values are left out. -/
theorem ofWords_words (s : Spelling) (c : Command) (spells : s.Spells c) :
    Command.ofWords (s.words c) = .ok c := by
  have verb : Token.ofWord (Text.Utf8.encode c.verb.name) =
      .plain (Text.Utf8.encode c.verb.name) :=
    Token.ofWord_plain c.verb.head?_name
  have read := (OptionReader.Has.start c).read_words s spells.path
    (by rw [List.append_nil]; exact spells.once)
    spells.present spells.clear (by simpa using spells.complete)
  rw [Spelling.words]
  unfold Command.ofWords
  simp only [verb, Text.Utf8.decodeLossy_encode, c.verb.ofName?_name]
  exact read

/-- A lookup of the lowest pid there is, through a socket that looks like an
option and has an equals sign. -/
def lowestLookup : Command :=
  .lookup { pid := -0x80000000, socket := some (.ofText "--pid=1"),
            timeout := 0xffffffffffffffff }

/-- The longest time there is and the lowest pid in two words each, and
the socket in one. -/
theorem ofWords_lowestLookup :
    let s : Spelling := [(.timeout, .apart), (.pid, .apart), (.socket, .joined)]
    s.Spells lowestLookup ∧
      s.words lowestLookup = ["bundle-id", "--timeout-ms", "18446744073709551615",
        "--pid", "-2147483648", "--socket=--pid=1"].map Text.Utf8.encode ∧
      Command.ofWords (s.words lowestLookup) = .ok lowestLookup := by
  intro s
  have spells : s.Spells lowestLookup := {
    once := by decide
    present := by
      intro k style listed
      simp only [s, List.mem_cons, Prod.mk.injEq, List.not_mem_nil,
        or_false] at listed
      rcases listed with ⟨rfl, -⟩ | ⟨rfl, -⟩ | ⟨rfl, -⟩ <;> rfl
    complete := by decide
    clear := by
      intro k listed other
      have k_eq : k = .timeout := by simpa [s, other] using listed
      subst k_eq
      decide
    path := by decide }
  exact ⟨spells, by decide, ofWords_words s lowestLookup spells⟩

end ElementAgent
