import GuidedTour.Proofs.Json.Comeback
import GuidedTour.Proofs.Json.Record
import GuidedTour.Service.Completion

namespace GuidedTour

/-!
# Which replies are completions

A successful reply is read as a whole before its text is looked for, so what stands beside the text
matters.

* `IsMessage`, `IsChoice`, `IsUsage`, `IsReply` — the documents that can be read, and what they say;
* `IsFirstContent` — the text where the first choice of a reply has its content;
* `complete_reply_iff` — the main result, and `complete_loses_text`, what it comes to.
-/

variable {d : Document} {content : Option String} {contents : List (Option String)} {text : String}
  {usage : Option TokenUsage}

/-! ### Documents that can be read -/

/-- A message: its content is a text, null or left out. -/
structure IsMessage (d : Document) (content : Option String) : Prop where
  isRecord : d.IsRecord ["content"]
  content : d.Gives ["content"] "content" (fun v s => v = .string (some s)) content

/-- A choice: its message is one, null or left out. -/
structure IsChoice (d : Document) (content : Option String) : Prop where
  isRecord : d.IsRecord ["message"]
  message : ∃ message, d.Gives ["message"] "message" IsMessage message ∧ message.join = content

/-- A natural number in 32 bits. -/
def IsCount (d : Document) (n : Nat) : Prop := n ≤ natMax32 ∧ d = .number (some (.int n))

/-- A usage: each of its numbers is one, or left out. -/
structure IsUsage (d : Document) (u : TokenUsage) : Prop where
  isRecord : d.IsRecord ["prompt_tokens", "completion_tokens"]
  promptTokens :
    d.GivesOr ["prompt_tokens", "completion_tokens"] "prompt_tokens" 0 IsCount u.promptTokens
  completionTokens :
    d.GivesOr ["prompt_tokens", "completion_tokens"] "completion_tokens" 0 IsCount
      u.completionTokens

/-- An array of choices with these contents. -/
def AreChoices (d : Document) (contents : List (Option String)) : Prop :=
  ∃ items, d = .array items ∧ List.Forall₂ IsChoice items contents

/-- A reply: its choices are an array of choices, or left out, and its usage is one, null or left
out. -/
structure IsReply (d : Document) (contents : List (Option String)) (usage : Option TokenUsage) :
    Prop where
  isRecord : d.IsRecord ["choices", "usage"]
  choices : d.GivesOr ["choices", "usage"] "choices" [] AreChoices contents
  usage : d.Gives ["choices", "usage"] "usage" IsUsage usage

/-- A text is read from a string without broken characters. -/
theorem text?_eq_some_iff (d : Document) (s : String) :
    d.text? = some s ↔ d = .string (some s) := by
  cases d <;> simp [Document.text?]

/-- A count is read from an integer that fits in 32 bits. -/
theorem nat?_eq_some_iff (d : Document) (n : Nat) : d.nat? natMax32 = some n ↔ IsCount d n := by
  unfold Document.nat? IsCount
  -- An integer of the range is given, or one beyond it, or no integer.
  split
  · next z =>
    split
    · next hz =>
      simp only [Bool.and_eq_true, decide_eq_true_eq] at hz
      simp only [Option.some.injEq, Document.number.injEq, Number.int.injEq]
      omega
    · next hz =>
      simp only [Bool.and_eq_true, decide_eq_true_eq] at hz
      simp only [reduceCtorEq, false_iff, Document.number.injEq, Option.some.injEq,
        Number.int.injEq]
      omega
  · next h =>
    simp only [reduceCtorEq, false_iff, not_and]
    exact fun _ hd => h n hd

/-- The content of a message is read from a document that is one. -/
theorem contentOf?_eq_some_iff (d : Document) (content : Option String) :
    contentOf? d = some content ↔ IsMessage d content := by
  show (d.record? (singleNames ["content"])).bind _ = some content ↔ _
  rw [Document.record?_bind_eq_some_iff]
  have hfield (hd : d.IsRecord ["content"]) :
      (d.recordOf ["content"]).optional "content" (·.text?) = some content ↔
        d.Gives ["content"] "content" (fun v s => v = .string (some s)) content :=
    Document.optional_eq_some_iff (by decide) hd (by decide) text?_eq_some_iff
  exact ⟨fun ⟨hd, hcontent⟩ => ⟨hd, (hfield hd).mp hcontent⟩,
    fun ⟨hd, hcontent⟩ => ⟨hd, (hfield hd).mpr hcontent⟩⟩

/-- The content of a choice is read from a document that is one. -/
theorem choiceOf?_eq_some_iff (d : Document) (content : Option String) :
    choiceOf? d = some content ↔ IsChoice d content := by
  show (d.record? (singleNames ["message"])).bind _ = some content ↔ _
  rw [Document.record?_bind_eq_some_iff]
  have hfield (hd : d.IsRecord ["message"]) (message : Option (Option String)) :
      (d.recordOf ["message"]).optional "message" contentOf? = some message ↔
        d.Gives ["message"] "message" IsMessage message :=
    Document.optional_eq_some_iff (by decide) hd (by decide) contentOf?_eq_some_iff
  constructor
  · rintro ⟨hd, hchoice⟩
    obtain ⟨message, hmessage, hcontent⟩ := Option.bind_eq_some_iff.mp hchoice
    exact ⟨hd, message, (hfield hd message).mp hmessage, Option.some.inj hcontent⟩
  · rintro ⟨hd, message, hmessage, rfl⟩
    exact ⟨hd, Option.bind_eq_some_iff.mpr ⟨message, (hfield hd message).mpr hmessage, rfl⟩⟩

/-- The numbers of tokens are read from a document that tells them. -/
theorem ofReply?_eq_some_iff (d : Document) (u : TokenUsage) :
    TokenUsage.ofReply? d = some u ↔ IsUsage d u := by
  show (d.record? (singleNames ["prompt_tokens", "completion_tokens"])).bind _ = some u ↔ _
  rw [Document.record?_bind_eq_some_iff]
  have hfield (hd : d.IsRecord ["prompt_tokens", "completion_tokens"]) (name : String)
      (hname : name ∈ ["prompt_tokens", "completion_tokens"]) (n : Nat) :
      (d.recordOf ["prompt_tokens", "completion_tokens"]).defaulted name 0 (·.nat? natMax32) =
          some n ↔
        d.GivesOr ["prompt_tokens", "completion_tokens"] name 0 IsCount n :=
    Document.defaulted_eq_some_iff (by decide) hd hname nat?_eq_some_iff
  constructor
  · rintro ⟨hd, husage⟩
    obtain ⟨promptTokens, hprompt, hrest⟩ := Option.bind_eq_some_iff.mp husage
    obtain ⟨completionTokens, hcompletion, hu⟩ := Option.bind_eq_some_iff.mp hrest
    obtain rfl := Option.some.inj hu
    exact ⟨hd, (hfield hd _ (by decide) _).mp hprompt, (hfield hd _ (by decide) _).mp hcompletion⟩
  · rintro ⟨hd, hprompt, hcompletion⟩
    refine ⟨hd, Option.bind_eq_some_iff.mpr ⟨_, (hfield hd _ (by decide) _).mpr hprompt, ?_⟩⟩
    exact Option.bind_eq_some_iff.mpr ⟨_, (hfield hd _ (by decide) _).mpr hcompletion, rfl⟩

/-- The contents of choices are read if each document is a choice. -/
theorem list?_choiceOf?_eq_some_iff (d : Document) (contents : List (Option String)) :
    d.list? choiceOf? = some contents ↔ AreChoices d contents := by
  rw [Document.list?_eq_some_iff]
  simp only [choiceOf?_eq_some_iff]
  rfl

/-- A reply is read from a document that is one. -/
theorem replyOf?_eq_some_iff (d : Document) (contents : List (Option String))
    (usage : Option TokenUsage) :
    replyOf? d = some (contents, usage) ↔ IsReply d contents usage := by
  show (d.record? (singleNames ["choices", "usage"])).bind _ = some (contents, usage) ↔ _
  rw [Document.record?_bind_eq_some_iff]
  have hchoices (hd : d.IsRecord ["choices", "usage"]) (given : List (Option String)) :
      (d.recordOf ["choices", "usage"]).defaulted "choices" [] (·.list? choiceOf?) = some given ↔
        d.GivesOr ["choices", "usage"] "choices" [] AreChoices given :=
    Document.defaulted_eq_some_iff (by decide) hd (by decide) list?_choiceOf?_eq_some_iff
  have husage (hd : d.IsRecord ["choices", "usage"]) (given : Option TokenUsage) :
      (d.recordOf ["choices", "usage"]).optional "usage" TokenUsage.ofReply? = some given ↔
        d.Gives ["choices", "usage"] "usage" IsUsage given :=
    Document.optional_eq_some_iff (by decide) hd (by decide) ofReply?_eq_some_iff
  constructor
  · rintro ⟨hd, hreply⟩
    obtain ⟨_, hgivenChoices, hrest⟩ := Option.bind_eq_some_iff.mp hreply
    obtain ⟨_, hgivenUsage, hpair⟩ := Option.bind_eq_some_iff.mp hrest
    obtain ⟨rfl, rfl⟩ := Prod.mk.inj (Option.some.inj hpair)
    exact ⟨hd, (hchoices hd _).mp hgivenChoices, (husage hd _).mp hgivenUsage⟩
  · rintro ⟨hd, hgivenChoices, hgivenUsage⟩
    refine ⟨hd, Option.bind_eq_some_iff.mpr ⟨_, (hchoices hd _).mpr hgivenChoices, ?_⟩⟩
    exact Option.bind_eq_some_iff.mpr ⟨_, (husage hd _).mpr hgivenUsage, rfl⟩

/-! ### The text -/

/-- The text that is the content of the message of the first choice. -/
def IsFirstContent (d : Document) (text : String) : Prop :=
  ∃ choice rest message, d.Holds ["choices", "usage"] "choices" (.array (choice :: rest)) ∧
    choice.Holds ["message"] "message" message ∧
    message.Holds ["content"] "content" (.string (some text))

/-- A message has a text if its content is that string. -/
theorem IsMessage.content_iff (h : IsMessage d content) :
    content = some text ↔ d.Holds ["content"] "content" (.string (some text)) := by
  obtain ⟨hd, hcontent⟩ := h
  constructor
  · rintro rfl
    obtain ⟨_, hv, -, rfl⟩ := hcontent
    exact hv
  · intro hv
    rcases hcontent.of_holds hv (by decide) hd (by decide) with ⟨hnull, -⟩ | ⟨s, rfl, hs⟩
    · cases hnull
    · rw [Option.some.inj (Document.string.inj hs)]

/-- A choice has a text if its message has it. -/
theorem IsChoice.content_iff (h : IsChoice d content) :
    content = some text ↔ ∃ message, d.Holds ["message"] "message" message ∧
      message.Holds ["content"] "content" (.string (some text)) := by
  obtain ⟨hd, content, hcontent, rfl⟩ := h
  constructor
  · intro htext
    obtain rfl := Option.join_eq_some_iff.mp htext
    obtain ⟨message, hmessage, -, hread⟩ := hcontent
    exact ⟨message, hmessage, hread.content_iff.mp rfl⟩
  · rintro ⟨message, hmessage, htext⟩
    rcases hcontent.of_holds hmessage (by decide) hd (by decide) with ⟨rfl, -⟩ | ⟨s, rfl, hread⟩
    · exact absurd htext id
    · exact hread.content_iff.mpr htext

/-- In a reply that can be read, the first content is the one of the first choice. -/
theorem IsReply.head?_iff (h : IsReply d contents usage) :
    contents.head?.join = some text ↔ IsFirstContent d text := by
  obtain ⟨hd, hchoices, -⟩ := h
  constructor
  · intro htext
    have hfirst := Option.join_eq_some_iff.mp htext
    rcases hchoices with ⟨_, hv, items, rfl, hitems⟩ | ⟨rfl, -⟩
    · -- The first content is that of the first choice, if there is one.
      cases hitems with
      | nil => cases hfirst
      | @cons choice _ rest _ hchoice _ =>
        obtain rfl := Option.some.inj hfirst
        obtain ⟨message, hmessage, hcontent⟩ := hchoice.content_iff.mp rfl
        exact ⟨choice, rest, message, hv, hmessage, hcontent⟩
    · cases hfirst
  · rintro ⟨choice, rest, message, hv, hmessage, hcontent⟩
    obtain ⟨_, heq, hitems⟩ := hchoices.of_holds hv (by decide) hd (by decide)
    obtain rfl := Document.array.inj heq
    cases hitems with
    | cons hchoice _ => exact hchoice.content_iff.mpr ⟨message, hmessage, hcontent⟩

/-! ### Outcomes -/

/-- A reply that can be read, whatever its choices say. -/
def IsReadable (d : Document) (usage : Option TokenUsage) : Prop :=
  ∃ contents, IsReply d contents usage

/-- When a body gives a response, and which one. -/
theorem ofBody_eq_ok_iff {body : String} {r : Response}
    (hbody : Document.parse body.toList = some d) :
    Response.ofBody body = .ok r ↔
      IsFirstContent d r.text ∧ r.text.isAllBlank = false ∧ IsReadable d r.usage := by
  obtain ⟨text, usage⟩ := r
  unfold Response.ofBody
  rw [hbody, Option.bind_some]
  -- If the body is no reply, nothing is read from it; otherwise its text may still be blank.
  cases hreply : replyOf? d with
  | none =>
    have hunread : ¬ IsReadable d usage := by
      rintro ⟨contents, hd⟩
      rw [(replyOf?_eq_some_iff d contents usage).mpr hd] at hreply
      cases hreply
    simp [hunread]
  | some reply =>
    obtain ⟨contents, given⟩ := reply
    have hd := (replyOf?_eq_some_iff d contents given).mp hreply
    have husage : IsReadable d usage ↔ given = usage := by
      constructor
      · rintro ⟨other, hother⟩
        rw [(replyOf?_eq_some_iff d other usage).mpr hother] at hreply
        exact (Prod.mk.inj (Option.some.inj hreply)).2.symm
      · rintro rfl
        exact ⟨contents, hd⟩
    have htext : contents.head?.join.filter (fun text => !text.isAllBlank) = some text ↔
        IsFirstContent d text ∧ text.isAllBlank = false := by
      rw [Option.filter_eq_some_iff, hd.head?_iff, Bool.not_eq_true']
    rw [husage, ← and_assoc, ← htext]
    dsimp only
    generalize contents.head?.join.filter (fun text => !text.isAllBlank) = found
    cases found <;> simp

/-- What is no completion is malformed. -/
theorem ofBody_error {body : String} {failure : Failure}
    (h : Response.ofBody body = .error failure) :
    ∃ detail, failure = .malformedResponse detail := by
  unfold Response.ofBody at h
  split at h
  · exact ⟨_, (Except.error.inj h).symm⟩
  · split at h
    · cases h
    · exact ⟨_, (Except.error.inj h).symm⟩

/-- **Which replies are completions.** A successful reply that is an object is a completion exactly
if its first content is a text that is not blank and everything else in it that is read can be read;
the text is that text, unchanged. Otherwise it is malformed. An unsuccessful reply is no completion.
-/
theorem complete_reply_iff (c : Client) (hkey : c.canSend = true) (status : Nat) (body : String)
    (members : List (Option String × Document))
    (hbody : Document.parse body.toList = some (.object members)) :
    (200 ≤ status ∧ status < 300 →
      (∀ r, c.complete (.reply status body) = .ok r ↔
        IsFirstContent (.object members) r.text ∧ r.text.isAllBlank = false ∧
          IsReadable (.object members) r.usage) ∧
      ((∀ r, c.complete (.reply status body) ≠ .ok r) →
        ∃ detail, c.complete (.reply status body) = .error (.malformedResponse detail))) ∧
      (¬ (200 ≤ status ∧ status < 300) → ∀ r, c.complete (.reply status body) ≠ .ok r) := by
  -- A client that can send hands the reply on as it is.
  have hreply : c.complete (.reply status body) = Response.ofReply status body := by
    unfold Client.complete
    rw [hkey]
    rfl
  rw [hreply]
  unfold Response.ofReply
  constructor
  · rintro ⟨hlow, hhigh⟩
    rw [if_pos (by simp [hlow, hhigh])]
    refine ⟨fun r => ofBody_eq_ok_iff hbody, fun hnone => ?_⟩
    cases houtcome : Response.ofBody body with
    | ok r => exact absurd houtcome (hnone r)
    | error failure =>
      obtain ⟨detail, rfl⟩ := ofBody_error houtcome
      exact ⟨detail, rfl⟩
  · intro hstatus r
    rw [if_neg (by simpa using hstatus)]
    exact nofun

/-- A reply whose choices have these contents. -/
def replyWith (contents : List Json) : Json :=
  .object [("choices", .array (contents.map fun content =>
    .object [("message", .object [("content", content)])]))]

/-- The first content of a reply is that of the first choice. -/
theorem isFirstContent_replyWith (text : String) (others : List Json) :
    IsFirstContent (replyWith (.string text :: others)).document text :=
  ⟨_, _, _, List.mem_cons_self, List.mem_cons_self, List.mem_cons_self⟩

/-- A client with a key. -/
def keyedClient : Client := ⟨{ apiKey := some "sk-1" }, "sk-1"⟩

/-- A reply with one choice and nothing about tokens. -/
theorem complete_reply_iff_hello : keyedClient.canSend = true ∧
    keyedClient.complete (.reply 200 (String.ofList (replyWith [.string "hi"]).compact)) =
      .ok ⟨"hi", none⟩ := by
  have hkey : keyedClient.canSend = true := by decide
  have hfit : (replyWith [.string "hi"]).NumbersFit := by
    simp [replyWith, Json.NumbersFit, Json.MembersFit, Json.ItemsFit]
  have hbody := Json.document_of_compact hfit
  rw [← String.toList_ofList (l := (replyWith [.string "hi"]).compact)] at hbody
  have hread : IsReply (replyWith [.string "hi"]).document [some "hi"] none :=
    (replyOf?_eq_some_iff _ _ _).mp (by decide +kernel)
  obtain ⟨hsuccess, -⟩ := complete_reply_iff keyedClient hkey 200 _ _ hbody
  obtain ⟨hcompletion, -⟩ := hsuccess (by decide)
  refine ⟨hkey, (hcompletion ⟨"hi", none⟩).mpr ?_⟩
  exact ⟨isFirstContent_replyWith "hi" [], by decide, _, hread⟩

/-- A reply with two choices. The content of the second one is a list of parts. -/
def replyInParts : Json := replyWith [.string "hi", .array [.string "n"]]

/-- The text of the first choice is lost to what the second one holds. -/
theorem complete_loses_text :
    String.ofList replyInParts.compact =
        "\x7b\"choices\":[\x7b\"message\":\x7b\"content\":\"hi\"\x7d\x7d," ++
          "\x7b\"message\":\x7b\"content\":[\"n\"]\x7d\x7d]\x7d" ∧
      IsFirstContent replyInParts.document "hi" ∧ "hi".isAllBlank = false ∧
      keyedClient.complete (.reply 200 (String.ofList replyInParts.compact)) =
        .error (.malformedResponse invalidJson) := by
  refine ⟨by decide +kernel, isFirstContent_replyWith "hi" _, by decide, ?_⟩
  decide +kernel

end GuidedTour
