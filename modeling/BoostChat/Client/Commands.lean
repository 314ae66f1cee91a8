import BoostChat.Basic
import BoostChat.Server.ChatMessage
import Mathlib.Data.List.Infix

/-!
# The commands of the chat client

`ChatClient::Send` turns a line of input into a message. The kind of the message is decided
by the beginning of the line, and a command is taken apart with `find` and `substr`.

* `send` — the message that a line yields, `none` when the line is refused;
* `partyCommands_iff` — a text after "/p " does what it should exactly when it begins with
  a hyphen or has none: a hyphen anywhere is taken for the beginning of an option;
* `dispatches_iff` — a line is dispatched as it should exactly when it does not begin with
  "/w" or begins with "/w ": the test for a whisper lacks the space.
-/

namespace BoostChat.Client

open Server (ChatMessage ChatMessageType)

/-! ## Strings of the C++ library -/

/-- `str.find(c, pos)`, `none` standing for `npos`. -/
def find (str : Bytes) (c : UInt8) (pos : Nat) : Option Nat :=
  ((str.drop pos).findIdx? fun b => b == c).map fun i => pos + i

/-- `pos + 1`, where `npos + 1` is 0. -/
def succPos : Option Nat → Nat
  | none => 0
  | some pos => pos + 1

/-- `str.substr(pos, count)`, with everything from `pos` on for `none`. -/
def substr (str : Bytes) (pos : Nat) (count : Option Nat) : Except StdException Bytes :=
  if str.length < pos then .error (.outOfRange (ascii "invalid string position"))
  else
    match count with
    | none => .ok (str.drop pos)
    | some count => .ok ((str.drop pos).take count)

def space : UInt8 := 32

def hyphen : UInt8 := 45

/-! ## The kinds of lines -/

/-- `userInput.substr(0, count) == text`. -/
def startsWith (userInput : Bytes) (count : Nat) (text : String) : Except StdException Bool :=
  (substr userInput 0 (some count)).map fun start => start == ascii text

def isWhisperMessage (userInput : Bytes) : Except StdException Bool := startsWith userInput 2 "/w"

def isPartyMessage (userInput : Bytes) : Except StdException Bool := startsWith userInput 3 "/p "

def isFriendRequestMessage (userInput : Bytes) : Except StdException Bool :=
  startsWith userInput 4 "/fr "

def isFriendAcceptMessage (userInput : Bytes) : Except StdException Bool :=
  startsWith userInput 4 "/fa "

def isFriendRejectMessage (userInput : Bytes) : Except StdException Bool :=
  startsWith userInput 4 "/fj "

/-! ## Messages from lines -/

/-- The message that a line is made into; `none` when the line is refused. -/
abbrev Strategy := Bytes → Except StdException (Option ChatMessage)

def createWhisperMessage : Strategy := fun userInput => do
  let spacePos := find userInput space 0
  let receiverEndPos := find userInput space (succPos spacePos)
  match spacePos, receiverEndPos with
  | some spacePos, some receiverEndPos =>
    let receiver ← substr userInput (spacePos + 1) (some (receiverEndPos - spacePos - 1))
    let message ← substr userInput (receiverEndPos + 1) none
    return some { messageType := .whisperMessage, receiver := receiver, content := message }
  | _, _ => return none

/-- `ChatClient::ExtractOptionAndPartyName`. -/
def extractOptionAndPartyName (userInput : Bytes) : Except StdException (Bytes × Bytes) := do
  if userInput.length < 3 then return (ascii "Error", [])
  match find userInput space 0 with
  | none => return ([], [])
  | some spacePos =>
    if ← startsWith userInput 3 "/p " then
      match find userInput hyphen 3 with
      | none => return ([], [])
      | some optionPos =>
        match find userInput space (optionPos + 1) with
        | none => return (ascii "Error", [])
        | some optionEndPos =>
          let option ← substr userInput optionPos (some (optionEndPos - optionPos))
          let partyName ← substr userInput (optionEndPos + 1) none
          return (option, partyName)
    else
      let partyName ← substr userInput (spacePos + 1) none
      return ([], partyName)

def getPartyMessageType (option : Bytes) : ChatMessageType :=
  if option = ascii "-create" then .partyCreate
  else if option = ascii "-delete" then .partyDelete
  else if option = ascii "-join" then .partyJoin
  else if option = ascii "-leave" then .partyLeave
  else .errorMessage

def createPartyMessage : Strategy := fun userInput => do
  let (option, partyName) ← extractOptionAndPartyName userInput
  if option = [] then
    let content ← substr userInput 3 none
    return some { messageType := .partyMessage, content := content }
  else if option = ascii "-create" ∨ option = ascii "-delete" ∨ option = ascii "-join" ∨
      option = ascii "-leave" then
    if partyName = [] then return none
    return some { messageType := getPartyMessageType option, content := partyName }
  else return none

def createNormalMessage : Strategy := fun userInput =>
  return some { messageType := .allMessage, content := userInput }

/-- The three commands for friend requests drop the first four bytes of the line. -/
def createFriendMessage (messageType : ChatMessageType) : Strategy := fun userInput => do
  let friendId ← substr userInput 4 none
  return some { messageType := messageType, content := friendId }

def createFriendRequestMessage : Strategy := createFriendMessage .friendRequest

def createFriendAcceptMessage : Strategy := createFriendMessage .friendAccept

def createFriendRejectMessage : Strategy := createFriendMessage .friendReject

def getCreateMessageStrategy (userInput : Bytes) : Except StdException Strategy := do
  if ← isWhisperMessage userInput then return createWhisperMessage
  if ← isPartyMessage userInput then return createPartyMessage
  if ← isFriendRequestMessage userInput then return createFriendRequestMessage
  if ← isFriendAcceptMessage userInput then return createFriendAcceptMessage
  if ← isFriendRejectMessage userInput then return createFriendRejectMessage
  return createNormalMessage

/-- `ChatClient::Send`: the message that goes to `AsyncWrite`. -/
def send (userInput : Bytes) : Except StdException (Option ChatMessage) := do
  let createMessageStrategy ← getCreateMessageStrategy userInput
  createMessageStrategy userInput

example : send (ascii "/w bob hi there") = .ok (some {
    messageType := .whisperMessage, receiver := ascii "bob", content := ascii "hi there" }) := by
  decide

theorem bind_eq_ok {ε α β : Type} {x : Except ε α} {f : α → Except ε β} {b : β}
    (h : x >>= f = .ok b) : ∃ a, x = .ok a ∧ f a = .ok b := by
  cases x with
  | error e => cases h
  | ok a => exact ⟨a, rfl, h⟩

/-! ## Positions -/

section Positions

variable {c : UInt8} {a b : Bytes} (before : Bytes)

/-- The first occurrence from a position on. -/
theorem find_append (h : c ∉ a) (b : Bytes) :
    find (before ++ (a ++ c :: b)) c before.length = some (before.length + a.length) := by
  have hidx : (a ++ c :: b).findIdx? (fun b => b == c) = some a.length := by
    rw [List.findIdx?_append]
    have hnone : a.findIdx? (fun b => b == c) = none :=
      List.findIdx?_eq_none_iff.mpr fun x hx => by
        rw [beq_eq_false_iff_ne]
        rintro rfl
        exact h hx
    rw [hnone, List.findIdx?_cons, beq_self_eq_true]
    simp
  rw [find, List.drop_left, hidx, Option.map_some]

theorem find_none (h : c ∉ a) : find (before ++ a) c before.length = none := by
  rw [find, List.drop_left, Option.map_eq_none_iff, List.findIdx?_eq_none_iff]
  intro x hx
  rw [beq_eq_false_iff_ne]
  rintro rfl
  exact h hx

theorem substr_append : substr (before ++ (a ++ b)) before.length (some a.length) = .ok a := by
  rw [substr, if_neg (by rw [List.length_append]; omega), List.drop_left]
  exact congrArg Except.ok List.take_left

theorem substr_rest : substr (before ++ b) before.length none = .ok b := by
  rw [substr, if_neg (by rw [List.length_append]; omega), List.drop_left]

/-- A prefix test, with the number of bytes of the text. -/
theorem startsWith_eq (userInput : Bytes) {count : Nat} {text : String}
    (hcount : (ascii text).length = count) :
    startsWith userInput count text = .ok (decide (ascii text <+: userInput)) := by
  have htest : (userInput.take count == ascii text) = decide (ascii text <+: userInput) := by
    rw [Bool.eq_iff_iff, beq_iff_eq, decide_eq_true_iff, List.prefix_iff_eq_take, hcount]
    exact eq_comm
  rw [startsWith, substr, if_neg (Nat.not_lt_zero _), List.drop_zero, ← htest]
  rfl

end Positions

/-! ## Dispatch -/

theorem getCreateMessageStrategy_eq (userInput : Bytes) :
    getCreateMessageStrategy userInput = .ok (
      if ascii "/w" <+: userInput then createWhisperMessage
      else if ascii "/p " <+: userInput then createPartyMessage
      else if ascii "/fr " <+: userInput then createFriendRequestMessage
      else if ascii "/fa " <+: userInput then createFriendAcceptMessage
      else if ascii "/fj " <+: userInput then createFriendRejectMessage
      else createNormalMessage) := by
  have hwhisper : isWhisperMessage userInput = _ := startsWith_eq userInput rfl
  have hparty : isPartyMessage userInput = _ := startsWith_eq userInput rfl
  have hrequest : isFriendRequestMessage userInput = _ := startsWith_eq userInput rfl
  have haccept : isFriendAcceptMessage userInput = _ := startsWith_eq userInput rfl
  have hreject : isFriendRejectMessage userInput = _ := startsWith_eq userInput rfl
  rw [getCreateMessageStrategy, hwhisper, hparty, hrequest, haccept, hreject]
  simp only [bind, Except.bind, decide_eq_true_eq, pure, Except.pure]
  split_ifs <;> rfl

section Send

variable {userInput : Bytes}

theorem send_whisper (h : ascii "/w" <+: userInput) :
    send userInput = createWhisperMessage userInput := by
  rw [send, getCreateMessageStrategy_eq, if_pos h]
  rfl

/-- Of two texts neither of which begins with the other, a line begins with one at most. -/
theorem not_starts {p q : Bytes} (hp : ¬ p <+: q) (hq : ¬ q <+: p) (x : Bytes) : ¬ p <+: q ++ x :=
  fun h => (List.prefix_or_prefix_of_prefix h (List.prefix_append q x)).elim hp hq

theorem send_party (text : Bytes) :
    send (ascii "/p " ++ text) = createPartyMessage (ascii "/p " ++ text) := by
  rw [send, getCreateMessageStrategy_eq, if_neg (not_starts (by decide) (by decide) text),
    if_pos (List.prefix_append _ _)]
  rfl

/-- A line that begins with none of the tested texts is sent to everybody as it is. -/
theorem send_normal (hwhisper : ¬ ascii "/w" <+: userInput) (hparty : ¬ ascii "/p " <+: userInput)
    (hrequest : ¬ ascii "/fr " <+: userInput) (haccept : ¬ ascii "/fa " <+: userInput)
    (hreject : ¬ ascii "/fj " <+: userInput) :
    send userInput = .ok (some { messageType := .allMessage, content := userInput }) := by
  rw [send, getCreateMessageStrategy_eq, if_neg hwhisper, if_neg hparty, if_neg hrequest,
    if_neg haccept, if_neg hreject]
  rfl

/-- The commands for friend requests. -/
def friendCommands : List (String × ChatMessageType) :=
  [("/fr ", .friendRequest), ("/fa ", .friendAccept), ("/fj ", .friendReject)]

theorem createFriendMessage_eq (messageType : ChatMessageType) {command : Bytes}
    (hlength : command.length = 4) (x : Bytes) :
    createFriendMessage messageType (command ++ x) =
      .ok (some { messageType := messageType, content := x }) := by
  have hrest : substr (command ++ x) 4 none = .ok x := hlength ▸ substr_rest command
  rw [createFriendMessage, hrest]
  rfl

theorem send_friend {command : String × ChatMessageType} (h : command ∈ friendCommands)
    (x : Bytes) : send (ascii command.1 ++ x) =
      .ok (some { messageType := command.2, content := x }) := by
  have hcase : command = ("/fr ", .friendRequest) ∨ command = ("/fa ", .friendAccept) ∨
      command = ("/fj ", .friendReject) := by simpa [friendCommands] using h
  have hlength : (ascii command.1).length = 4 := by
    rcases hcase with rfl | rfl | rfl <;> rfl
  rw [← createFriendMessage_eq command.2 hlength x, send, getCreateMessageStrategy_eq]
  -- none of the beginnings that are tried before is that of the line
  rcases hcase with rfl | rfl | rfl
  · rw [if_neg (not_starts (by decide) (by decide) x),
      if_neg (not_starts (by decide) (by decide) x), if_pos (List.prefix_append _ _)]
    rfl
  · rw [if_neg (not_starts (by decide) (by decide) x),
      if_neg (not_starts (by decide) (by decide) x),
      if_neg (not_starts (by decide) (by decide) x), if_pos (List.prefix_append _ _)]
    rfl
  · rw [if_neg (not_starts (by decide) (by decide) x),
      if_neg (not_starts (by decide) (by decide) x),
      if_neg (not_starts (by decide) (by decide) x),
      if_neg (not_starts (by decide) (by decide) x), if_pos (List.prefix_append _ _)]
    rfl

end Send

/-! ## Whispers -/

/-- A well-formed whisper is taken apart at its first two spaces. -/
theorem createWhisperMessage_eq {receiver : Bytes} (hreceiver : space ∉ receiver)
    (content : Bytes) :
    createWhisperMessage (ascii "/w " ++ (receiver ++ space :: content)) =
      .ok (some { messageType := .whisperMessage, receiver := receiver, content := content }) := by
  -- the receiver stands between the two spaces, the content is the rest
  have hnone : space ∉ ascii "/w" := by decide
  have hfirst : find (ascii "/w " ++ (receiver ++ space :: content)) space 0 = some 2 :=
    find_append [] hnone (receiver ++ space :: content)
  have hsecond : find (ascii "/w " ++ (receiver ++ space :: content)) space (2 + 1) =
      some (3 + receiver.length) := find_append (ascii "/w ") hreceiver content
  have hcount : 3 + receiver.length - 2 - 1 = receiver.length := by omega
  have hsubstr : substr (ascii "/w " ++ (receiver ++ space :: content)) (2 + 1)
      (some receiver.length) = .ok receiver := substr_append (ascii "/w ")
  have hrest : substr (ascii "/w " ++ (receiver ++ space :: content)) (3 + receiver.length + 1)
      none = .ok content := by
    have hlength : (ascii "/w " ++ receiver ++ [space]).length = 3 + receiver.length + 1 := by
      rw [List.length_append, List.length_append]
      rfl
    have hsplit : ascii "/w " ++ (receiver ++ space :: content) =
        ascii "/w " ++ receiver ++ [space] ++ content := by
      simp only [List.append_assoc, List.singleton_append]
    rw [hsplit, ← hlength]
    exact substr_rest _
  simp only [createWhisperMessage, hfirst, succPos, hsecond, hcount, hsubstr, hrest, bind,
    Except.bind, pure, Except.pure]

/-- What comes of a line that begins with "/w" is a whisper, if anything. -/
theorem createWhisperMessage_type {userInput : Bytes} {msg : ChatMessage}
    (h : createWhisperMessage userInput = .ok (some msg)) : msg.messageType = .whisperMessage := by
  rw [createWhisperMessage] at h
  cases hfirst : find userInput space 0 with
  | none =>
    rw [hfirst] at h
    cases h
  | some spacePos =>
    cases hsecond : find userInput space (succPos (some spacePos)) with
    | none =>
      rw [hfirst, hsecond] at h
      cases h
    | some receiverEndPos =>
      rw [hfirst, hsecond] at h
      obtain ⟨receiver, -, h⟩ := bind_eq_ok h
      obtain ⟨message, -, h⟩ := bind_eq_ok h
      obtain rfl := Option.some.inj (Except.ok.inj h)
      rfl

/-! ## Commands about parties -/

/-- The options after "/p ", with the requests that they stand for. -/
def partyOptions : List (String × ChatMessageType) :=
  [("-create", .partyCreate), ("-delete", .partyDelete), ("-join", .partyJoin),
    ("-leave", .partyLeave)]

section Party

variable {a b : Bytes}

theorem party_space (text : Bytes) : find (ascii "/p " ++ text) space 0 = some 2 := by
  have hnone : space ∉ ascii "/p" := by decide
  exact find_append [] hnone text

theorem party_length (text : Bytes) : ¬ (ascii "/p " ++ text).length < 3 := by
  rw [List.length_append]
  have hlength : (ascii "/p ").length = 3 := rfl
  omega

theorem party_startsWith (text : Bytes) : startsWith (ascii "/p " ++ text) 3 "/p " = .ok true := by
  have hcount : (ascii "/p ").length = 3 := rfl
  rw [startsWith_eq _ hcount, decide_eq_true (List.prefix_append _ _)]

/-- No hyphen: no option. -/
theorem extract_plain (h : hyphen ∉ a) :
    extractOptionAndPartyName (ascii "/p " ++ a) = .ok ([], []) := by
  have hnone : find (ascii "/p " ++ a) hyphen 3 = none := find_none (ascii "/p ") h
  simp only [extractOptionAndPartyName, if_neg (party_length a), party_space, party_startsWith,
    hnone, bind, Except.bind, pure, Except.pure, if_true]

/-- No space after the first hyphen. -/
theorem extract_error (ha : hyphen ∉ a) (hb : space ∉ b) :
    extractOptionAndPartyName (ascii "/p " ++ (a ++ hyphen :: b)) = .ok (ascii "Error", []) := by
  have hfirst : find (ascii "/p " ++ (a ++ hyphen :: b)) hyphen 3 = some (3 + a.length) :=
    find_append (ascii "/p ") ha b
  have hlength : (ascii "/p " ++ a ++ [hyphen]).length = 3 + a.length + 1 := by
    rw [List.length_append, List.length_append]
    rfl
  have hsplit : ascii "/p " ++ (a ++ hyphen :: b) = ascii "/p " ++ a ++ [hyphen] ++ b := by
    simp only [List.append_assoc, List.singleton_append]
  have hnone : find (ascii "/p " ++ (a ++ hyphen :: b)) space (3 + a.length + 1) = none := by
    rw [hsplit, ← hlength]
    exact find_none _ hb
  simp only [extractOptionAndPartyName, if_neg (party_length _), party_space, party_startsWith,
    hfirst, hnone, bind, Except.bind, pure, Except.pure, if_true]

/-- The option is what stands between the first hyphen and the next space. -/
theorem extract_option (ha : hyphen ∉ a) (hb : space ∉ b) (name : Bytes) :
    extractOptionAndPartyName (ascii "/p " ++ (a ++ hyphen :: (b ++ space :: name))) =
      .ok (hyphen :: b, name) := by
  have hfirst : find (ascii "/p " ++ (a ++ hyphen :: (b ++ space :: name))) hyphen 3 =
      some (3 + a.length) := find_append (ascii "/p ") ha _
  have hbefore : (ascii "/p " ++ a).length = 3 + a.length := List.length_append
  have hlength : (ascii "/p " ++ a ++ [hyphen]).length = 3 + a.length + 1 := by
    rw [List.length_append, hbefore]
    rfl
  have hsecond : find (ascii "/p " ++ (a ++ hyphen :: (b ++ space :: name))) space
      (3 + a.length + 1) = some (3 + a.length + 1 + b.length) := by
    have hsplit : ascii "/p " ++ (a ++ hyphen :: (b ++ space :: name)) =
        ascii "/p " ++ a ++ [hyphen] ++ (b ++ space :: name) := by
      simp only [List.append_assoc, List.singleton_append]
    rw [hsplit, ← hlength]
    exact find_append _ hb name
  have hcount : 3 + a.length + 1 + b.length - (3 + a.length) = (hyphen :: b).length := by
    rw [List.length_cons]
    omega
  -- the option keeps its hyphen, the name loses the space before it
  have hoption : substr (ascii "/p " ++ (a ++ hyphen :: (b ++ space :: name))) (3 + a.length)
      (some (hyphen :: b).length) = .ok (hyphen :: b) := by
    have hsplit : ascii "/p " ++ (a ++ hyphen :: (b ++ space :: name)) =
        ascii "/p " ++ a ++ ((hyphen :: b) ++ space :: name) := by
      rw [List.append_assoc]
      rfl
    rw [hsplit, ← hbefore]
    exact substr_append _
  have hname : substr (ascii "/p " ++ (a ++ hyphen :: (b ++ space :: name)))
      (3 + a.length + 1 + b.length + 1) none = .ok name := by
    have hsplit : ascii "/p " ++ (a ++ hyphen :: (b ++ space :: name)) =
        ascii "/p " ++ a ++ [hyphen] ++ b ++ [space] ++ name := by
      simp only [List.append_assoc, List.cons_append, List.nil_append]
    have hlast : (ascii "/p " ++ a ++ [hyphen] ++ b ++ [space]).length =
        3 + a.length + 1 + b.length + 1 := by
      rw [List.length_append, List.length_append, hlength]
      rfl
    rw [hsplit, ← hlast]
    exact substr_rest _
  simp only [extractOptionAndPartyName, if_neg (party_length _), party_space, party_startsWith,
    hfirst, hsecond, hcount, hoption, hname, bind, Except.bind, pure, Except.pure, if_true]

/-- A text without a hyphen goes to the party as it is. -/
theorem createPartyMessage_plain (h : hyphen ∉ a) : createPartyMessage (ascii "/p " ++ a) =
    .ok (some { messageType := .partyMessage, content := a }) := by
  have hrest : substr (ascii "/p " ++ a) 3 none = .ok a := substr_rest (ascii "/p ")
  simp only [createPartyMessage, extract_plain h, hrest, bind, Except.bind, pure, Except.pure,
    if_true]

/-- An option and a name make a request about the party of that name. -/
theorem createPartyMessage_option {option : String × ChatMessageType}
    (h : option ∈ partyOptions) {name : Bytes} (hname : name ≠ []) :
    createPartyMessage (ascii "/p " ++ (ascii option.1 ++ space :: name)) =
      .ok (some { messageType := option.2, content := name }) := by
  have hcase : option = ("-create", .partyCreate) ∨ option = ("-delete", .partyDelete) ∨
      option = ("-join", .partyJoin) ∨ option = ("-leave", .partyLeave) := by
    simpa [partyOptions] using h
  -- the option ends at the space in front of the name, whatever the name contains
  have hshape : ∃ b, ascii option.1 = hyphen :: b ∧ space ∉ b := by
    rcases hcase with rfl | rfl | rfl | rfl <;> exact ⟨_, rfl, by decide⟩
  obtain ⟨b, hb, hspace⟩ := hshape
  have hnone : hyphen ∉ [] := List.not_mem_nil
  have hextract := extract_option hnone hspace name
  rw [List.nil_append, ← List.cons_append, ← hb] at hextract
  rw [createPartyMessage, hextract]
  rcases hcase with rfl | rfl | rfl | rfl <;>
    simp [bind, Except.bind, pure, Except.pure, hname, getPartyMessageType, ascii]

theorem getPartyMessageType_ne (option : Bytes) :
    getPartyMessageType option ≠ .partyMessage := by
  unfold getPartyMessageType
  split_ifs <;> exact fun h => nomatch h

/-- A text with a hyphen does not go to the party. -/
theorem createPartyMessage_hyphen (h : hyphen ∈ a) {msg : ChatMessage}
    (hmsg : createPartyMessage (ascii "/p " ++ a) = .ok (some msg)) :
    msg.messageType ≠ .partyMessage := by
  obtain ⟨before, after, rfl, hbefore⟩ := List.eq_append_cons_of_mem h
  -- the option begins with the first hyphen, so it is not empty
  obtain ⟨option, name, hextract, hoption⟩ : ∃ option name,
      extractOptionAndPartyName (ascii "/p " ++ (before ++ hyphen :: after)) =
        .ok (option, name) ∧ option ≠ [] := by
    by_cases hspace : space ∈ after
    · obtain ⟨option, name, rfl, hnone⟩ := List.eq_append_cons_of_mem hspace
      exact ⟨_, _, extract_option hbefore hnone name, List.cons_ne_nil _ _⟩
    · exact ⟨_, _, extract_error hbefore hspace, List.cons_ne_nil _ _⟩
  rw [createPartyMessage, hextract] at hmsg
  simp only [bind, Except.bind, if_neg hoption] at hmsg
  split at hmsg
  · split at hmsg
    · cases hmsg
    · obtain rfl := Option.some.inj (Except.ok.inj hmsg)
      exact getPartyMessageType_ne option
  · cases hmsg

end Party

/-- What a text after "/p " should do: an option and a name make the request about the party
of that name, and a text that does not begin with a hyphen goes to the party as it is. -/
structure PartyCommands (text : Bytes) : Prop where
  option : ∀ option ∈ partyOptions, ∀ name, name ≠ [] →
    text = ascii option.1 ++ space :: name →
    send (ascii "/p " ++ text) = .ok (some { messageType := option.2, content := name })
  message : text ≠ [] → text.head? ≠ some hyphen →
    send (ascii "/p " ++ text) = .ok (some { messageType := .partyMessage, content := text })

/-- **Commands about parties.** -/
theorem partyCommands_iff (text : Bytes) :
    PartyCommands text ↔ text.head? = some hyphen ∨ hyphen ∉ text := by
  have hoption : ∀ option ∈ partyOptions, ∀ name, name ≠ [] →
      text = ascii option.1 ++ space :: name →
      send (ascii "/p " ++ text) = .ok (some { messageType := option.2, content := name }) := by
    rintro option hmem name hname rfl
    rw [send_party, createPartyMessage_option hmem hname]
  constructor
  · intro h
    by_contra hnot
    rw [not_or, not_not] at hnot
    obtain ⟨hhead, hhyphen⟩ := hnot
    -- the hyphen inside is taken for the beginning of an option
    have hsend := h.message (List.ne_nil_of_mem hhyphen) hhead
    rw [send_party] at hsend
    exact createPartyMessage_hyphen hhyphen hsend rfl
  · intro hshape
    refine ⟨hoption, fun _ hhead => ?_⟩
    rw [send_party, createPartyMessage_plain (hshape.resolve_left hhead)]

/-- A text about a pizza is refused, and one that mentions a command is taken for it. -/
theorem partyCommands_hyphen :
    send (ascii "/p half-price pizza today") = .ok none ∧
    ¬ PartyCommands (ascii "half-price pizza today") ∧
    send (ascii "/p type -create fun") =
      .ok (some { messageType := .partyCreate, content := ascii "fun" }) ∧
    ¬ PartyCommands (ascii "type -create fun") := by
  have hpizza : send (ascii "/p half-price pizza today") = .ok none := by decide
  have hcreate : send (ascii "/p type -create fun") =
      .ok (some { messageType := .partyCreate, content := ascii "fun" }) := by decide
  refine ⟨hpizza, fun h => ?_, hcreate, fun h => ?_⟩
  · have hsend := h.message (by decide) (by decide)
    rw [show ascii "/p " ++ ascii "half-price pizza today" =
      ascii "/p half-price pizza today" from rfl, hpizza] at hsend
    cases hsend
  · have hsend := h.message (by decide) (by decide)
    rw [show ascii "/p " ++ ascii "type -create fun" = ascii "/p type -create fun" from rfl,
      hcreate] at hsend
    cases hsend

/-! ## All lines -/

/-- The commands, as a line begins with them. -/
def commands : List String := ["/w ", "/p ", "/fr ", "/fa ", "/fj "]

/-- What a line should do, commands about parties apart. -/
structure Dispatches (line : Bytes) : Prop where
  whisper : ∀ receiver content, receiver ≠ [] → space ∉ receiver →
    line = ascii "/w " ++ (receiver ++ space :: content) →
    send line = .ok (some {
      messageType := .whisperMessage, receiver := receiver, content := content })
  friend : ∀ command ∈ friendCommands, ∀ x, line = ascii command.1 ++ x →
    send line = .ok (some { messageType := command.2, content := x })
  normal : (∀ command ∈ commands, ¬ ascii command <+: line) →
    send line = .ok (some { messageType := .allMessage, content := line })

/-- **Dispatch of lines.** -/
theorem dispatches_iff (line : Bytes) :
    Dispatches line ↔ (ascii "/w" <+: line → ascii "/w " <+: line) := by
  constructor
  · intro h hw
    by_contra hspace
    -- a line that begins with "/w" begins with no other command
    have hnone : ∀ command ∈ commands, ¬ ascii command <+: line := by
      obtain ⟨rest, rfl⟩ := hw
      intro command hcommand
      have hcase : command = "/w " ∨ command = "/p " ∨ command = "/fr " ∨ command = "/fa " ∨
          command = "/fj " := by simpa [commands] using hcommand
      rcases hcase with rfl | rfl | rfl | rfl | rfl
      · exact hspace
      · exact not_starts (by decide) (by decide) rest
      · exact not_starts (by decide) (by decide) rest
      · exact not_starts (by decide) (by decide) rest
      · exact not_starts (by decide) (by decide) rest
    have hsend := h.normal hnone
    rw [send_whisper hw] at hsend
    -- but it is treated as a whisper
    cases createWhisperMessage_type hsend
  · intro hw
    refine ⟨?_, ?_, fun hnone => ?_⟩
    · rintro receiver content - hreceiver rfl
      rw [send_whisper ⟨_, by rfl⟩, createWhisperMessage_eq hreceiver]
    · rintro command hcommand x rfl
      exact send_friend hcommand x
    · have hnot (command : String) (h : command ∈ commands) := hnone command h
      exact send_normal (fun h => hnot "/w " (by decide) (hw h)) (hnot "/p " (by decide))
        (hnot "/fr " (by decide)) (hnot "/fa " (by decide)) (hnot "/fj " (by decide))

/-- A question to everybody becomes a whisper to somebody, and a short line is refused. -/
theorem dispatches_where :
    send (ascii "/where are you") = .ok (some {
      messageType := .whisperMessage, receiver := ascii "are", content := ascii "you" }) ∧
    ¬ Dispatches (ascii "/where are you") ∧
    send (ascii "/wow") = .ok none ∧ ¬ Dispatches (ascii "/wow") := by
  have hwhere : send (ascii "/where are you") = .ok (some {
      messageType := .whisperMessage, receiver := ascii "are", content := ascii "you" }) := by
    decide
  have hwow : send (ascii "/wow") = .ok none := by decide
  refine ⟨hwhere, fun h => ?_, hwow, fun h => ?_⟩
  · have hsend := h.normal (by decide)
    rw [hwhere] at hsend
    cases hsend
  · have hsend := h.normal (by decide)
    rw [hwow] at hsend
    cases hsend

end BoostChat.Client
