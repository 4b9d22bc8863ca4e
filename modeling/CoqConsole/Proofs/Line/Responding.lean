import CoqConsole.Proofs.Line.Attention
import CoqConsole.Proofs.Line.Winding

/-!
# How a line answers its server

Whatever a server sends, a line writes a response to it at once or not at all, and nothing else that it writes is one.

* `Json.isRegular` : the messages as the protocol has them; `Json.response?` : the response that one asks for;
* `Line.answerFor_text`, `bears_of_isRegular`, `wire_dispatch` : each can be borne, and what a line writes for it;
* `Host.responsesTo` : the responses that a process got; `Wired.responses_service` : operations write none;
* `Circuit.isServed` : the server runs and its messages are regular, all along a run;
* `Circuit.wire_read`, `responses_after`, `responses_follow` : reading, any event, and a run;
* `Circuit.Responds`, `requests_answered` : what holds of every such run.
-/

namespace CoqConsole

/-! ## Messages -/

namespace Json

/-- A whole number or a text, or nothing. -/
def isId : Option Json → Bool
  | none | some .null | some (.int _) | some (.text _) => true
  | _ => false

/-- An object whose items, if there are any, are a list, or nothing. -/
def isSelection : Option Json → Bool
  | none | some .null => true
  | some (.object members) =>
    match Keyed.get? "items" members with
    | none | some (.array _) => true
    | _ => false
  | _ => false

/-- A message as the protocol has it: methods are texts, an answer has a number, and a request for settings says which. -/
def isRegular : Json → Bool
  | .object members =>
    match Keyed.get? "method" members with
    | none | some .null => isId (Keyed.get? "id" members)
    | some (.text method) =>
      method != Line.configurationMethod || (Keyed.get? "id" members).isNone ||
        isSelection (Keyed.get? "params" members)
    | _ => false
  | _ => false

def itemCount (message : Json) : Nat :=
  match (message.get? "params").bind (get? "items") with
  | some (.array items) => items.length
  | _ => 0

def outcome (method : String) (message : Json) : String × Json :=
  if method ∈ Line.housekeeping then ("result", .null)
  else if method = Line.configurationMethod then ("result", .array (List.replicate message.itemCount .null))
  else ("error", .object [("code", .int Line.methodNotFound), ("message", .text ("Unsupported method: " ++ method))])

/-- The response to a message, if it is a request: it has the id of the request, whatever that is. -/
def response? (message : Json) : Option Json :=
  match message.get? "method", message.get? "id" with
  | some (.text method), some id =>
    some (.object [("jsonrpc", .text "2.0"), ("id", id), message.outcome method])
  | _, _ => none

/-- What a regular message is: an answer, or it has a method, and what it needs if it is a request. -/
theorem regular_cases {message : Json} (h : message.isRegular = true) :
    (∃ method, message.find "method" = .ok method ∧ (method.getD .null).isNull = true ∧
      isId (message.get? "id") = true) ∨
    ∃ method, message.find "method" = .ok (some (.text method)) ∧
      (method = Line.configurationMethod → (message.get? "id").isSome = true →
        isSelection (message.get? "params") = true) := by
  cases message with
  | object members =>
    simp only [isRegular] at h
    split at h
    · next hnone => exact .inl ⟨_, congrArg Except.ok hnone, rfl, h⟩
    · next hnull => exact .inl ⟨_, congrArg Except.ok hnull, rfl, h⟩
    · next method hmethod =>
      refine .inr ⟨method, congrArg Except.ok hmethod, fun hname hid => ?_⟩
      rw [hname, bne_self_eq_false, Bool.false_or, Bool.or_eq_true, Option.isNone_iff_eq_none] at h
      rcases h with hnone | hselection
      · rw [show get? "id" (.object members) = none from hnone] at hid
        cases hid
      · exact hselection
    · cases h
  | _ => cases h

theorem response?_of_isNull {message : Json} {method : Option Json} (hfind : message.find "method" = .ok method)
    (hnull : (method.getD .null).isNull = true) : message.response? = none := by
  unfold response?
  rw [get?_of_find hfind]
  rcases method with _ | (_ | _) <;> first | rfl | cases hnull

/-- Exactly the messages with a method and an id ask for a response. -/
theorem isSome_response? {message : Json} (h : message.isRegular = true) :
    message.response?.isSome = true ↔
      (∃ method, message.get? "method" = some method ∧ method ≠ .null) ∧ (message.get? "id").isSome = true := by
  rcases regular_cases h with ⟨method, hfind, hnull, -⟩ | ⟨method, hfind, -⟩
  · rw [response?_of_isNull hfind hnull, get?_of_find hfind]
    refine ⟨nofun, ?_⟩
    rintro ⟨⟨value, rfl, hvalue⟩, -⟩
    cases value <;> first | exact absurd rfl hvalue | cases hnull
  · unfold response?
    rw [get?_of_find hfind]
    cases message.get? "id" with
    | none => exact ⟨nofun, fun ⟨_, hid⟩ => nomatch hid⟩
    | some id => exact ⟨fun _ => ⟨⟨_, rfl, nofun⟩, rfl⟩, fun _ => rfl⟩

theorem key_outcome (method : String) (message : Json) :
    (message.outcome method).1 = "result" ∨ (message.outcome method).1 = "error" := by
  unfold outcome
  split
  · exact .inl rfl
  · split
    · exact .inl rfl
    · exact .inr rfl

/-- A response names no method. -/
theorem get?_method_response {message response : Json} (h : message.response? = some response) :
    response.get? "method" = none := by
  unfold response? at h
  split at h
  · next method id _ _ =>
    cases h
    have hkey := key_outcome method message
    generalize message.outcome method = member at hkey
    obtain ⟨key, value⟩ := member
    rcases hkey with rfl | rfl <;> rfl
  · cases h

end Json

namespace Line

variable {message : Json}

theorem ite_truthy_object (members : List (String × Json)) :
    (if (Json.object members).truthy = true then Json.object members else .object []) = .object members := by
  cases members <;> rfl

/-- The items that a request for settings names are found, and as many nulls answer them. -/
theorem settings_of_isSelection (h : Json.isSelection (message.get? "params") = true) :
    (do
      let params := (message.get? "params").getD .null
      let params := if params.truthy then params else .object []
      let items ← ((← params.find "items").getD (.array [])).elements
      return ("result", .array (items.map fun _ => .null)) : Except Failure (String × Json)) =
      .ok ("result", .array (List.replicate message.itemCount .null)) := by
  unfold Json.itemCount
  cases hparams : message.get? "params" with
  | none => rfl
  | some params =>
    rw [hparams] at h
    cases params with
    | null => rfl
    | object members =>
      simp only [Option.getD_some, Option.bind_some, ite_truthy_object, Json.find, Json.get?]
      simp only [Json.isSelection] at h
      cases hitems : Keyed.get? "items" members with
      | none => rfl
      | some items =>
        rw [hitems] at h
        cases items with
        | array items => exact congrArg (fun nulls => Except.ok ("result", Json.array nulls)) (List.map_const' ..)
        | _ => cases h
    | _ => cases h

/-- The answer that is written to a request says what the response to it says. -/
theorem answerFor_text {method : String}
    (h : method = configurationMethod → Json.isSelection (message.get? "params") = true) :
    answerFor (.text method) message = .ok (message.outcome method) := by
  unfold answerFor Json.outcome
  simp only [List.any_eq_true, beq_iff_eq, exists_eq_right']
  split
  · rfl
  · split
    · next hname => exact settings_of_isSelection (h hname)
    · rfl

theorem keyOf_of_isId {id : Option Json} (h : Json.isId id = true) : ∃ target, keyOf (id.getD .null) = .ok target := by
  rcases id with _ | (_ | _)
  all_goals first | exact ⟨_, rfl⟩ | cases h

/-- A server that runs may send any message that is regular. -/
theorem bears_of_isRegular (h : message.isRegular = true) : bears true message = true := by
  unfold bears
  rcases Json.regular_cases h with ⟨method, hfind, hnull, hid⟩ | ⟨method, hfind, hselection⟩
  · obtain ⟨target, htarget⟩ := keyOf_of_isId hid
    simp only [hfind, hnull, if_true, htarget]
    rfl
  · simp only [hfind, Option.getD_some, Json.isNull, Bool.false_eq_true, if_false]
    by_cases hid : (message.get? "id").isSome = true
    · rw [if_pos hid, answerFor_text fun hname => hselection hname hid]
      rfl
    · rw [if_neg hid]
      rfl

/-- A line writes the response to a message that asks for one, and nothing else. -/
theorem wire_dispatch (handles : String → Bool) (h : message.isRegular = true) {w : Wired} {p : Nat}
    (hp : w.running? = some p) :
    ((dispatch handles message).run.run w).2.host.wire =
      w.host.wire ++ (message.response?.map fun response => (p, response)).toList := by
  rcases Json.regular_cases h with ⟨method, hfind, hnull, hid⟩ | ⟨method, hfind, hselection⟩
  · obtain ⟨target, htarget⟩ := keyOf_of_isId hid
    rw [run_dispatch_answer handles ⟨⟨method, hfind, hnull⟩, htarget⟩, Json.response?_of_isNull hfind hnull,
      Option.map_none, Option.toList_none, List.append_nil]
    cases target with
    | none => rfl
    | some id => rfl
  · have hmethod := Json.get?_of_find hfind
    simp only [dispatch, run_bind, run_lift, hfind, Option.getD_some, Json.isNull, Bool.false_eq_true, if_false]
    unfold Json.response?
    rw [hmethod]
    cases hid : message.get? "id" with
    | none =>
      simp only [run_bind, run_lift, Json.key, Option.map_none, Option.toList_none, List.append_nil]
      rfl
    | some id =>
      have hanswer := answerFor_text fun hname => hselection hname (hid ▸ rfl)
      simp only [run_bind, run_lift, hanswer, run_write, hp]
      rfl

end Line

/-! ## What is written otherwise -/

def Host.responsesTo (h : Host) (p : Nat) : List Json :=
  h.wire.filterMap fun m => if m.1 = p ∧ (m.2.get? "method").isNone then some m.2 else none

theorem Host.responsesTo_append {h h' : Host} {more : List (Nat × Json)} (hwire : h'.wire = h.wire ++ more) (p : Nat) :
    h'.responsesTo p =
      h.responsesTo p ++ more.filterMap fun m => if m.1 = p ∧ (m.2.get? "method").isNone then some m.2 else none := by
  rw [responsesTo, hwire, List.filterMap_append]
  rfl

theorem Host.responsesTo_eq {h h' : Host} (hwire : h'.wire = h.wire) (p : Nat) : h'.responsesTo p = h.responsesTo p := by
  rw [responsesTo, hwire]
  rfl

/-- No operation of a line writes a response. -/
theorem Wired.responses_service (w₀ : Wired) (p : Nat) :
    Line.Service fun w => w.host.responsesTo p = w₀.host.responsesTo p where
  deliver {w q message} h _ hmethod := by
    have hwire : (w.host.deliver q message).wire = w.host.wire ++ [(q, message)] := rfl
    obtain ⟨method, hmethod⟩ := Option.isSome_iff_exists.mp hmethod
    rw [← h, Host.responsesTo_append hwire]
    simp [hmethod]
  edit h _ := h
  host h _ hwire := (Host.responsesTo_eq hwire p).trans h
  spawned h _ hwire _ := (Host.responsesTo_eq hwire p).trans h
  released h _ _ := h

namespace Circuit

variable {c : Circuit}

/-- The server runs as a message is read, and the message is regular. -/
def serves (c : Circuit) : Event → Bool
  | .move .read => c.wired.incoming?.all fun (_, message, _) => c.wired.isRunning && message.isRegular
  | _ => true

def isServed (c : Circuit) : List Event → Bool
  | [] => true
  | e :: es => c.serves e && (c.after e).isServed es

/-- The response that the next message asks for, with the process that gets it. -/
def response? (c : Circuit) : Option (Nat × Json) :=
  c.wired.incoming?.bind fun (p, message, _) => message.response?.map fun response => (p, response)

theorem wire_hand (c : Circuit) (handed : Option (String × Json)) : (c.hand handed).wired.host.wire = c.wired.host.wire := by
  cases handed with
  | none => rfl
  | some handed =>
    unfold hand handle
    simp only
    split <;> rfl

/-- Reading writes the response to what is read, if it asks for one, and nothing else; and after a message it goes on. -/
theorem wire_read (h : c.serves (.move .read) = true) :
    (c.after (.move .read)).wired.host.wire = c.wired.host.wire ++ c.response?.toList ∧
      (c.wired.incoming?.isSome = true → (c.after (.move .read)).wired.line.reading = true) := by
  unfold response?
  cases hin : c.wired.incoming? with
  | none =>
    refine ⟨?_, nofun⟩
    rw [Option.bind_none, Option.toList_none, List.append_nil, after, apply]
    cases hread : c.wired.read fun m => Keyed.has m c.handlers with
    | none => rfl
    | some out =>
      obtain ⟨w, handed⟩ := out
      obtain ⟨rfl, -, -, v, r, rfl, rfl | ⟨p, rest, rfl⟩⟩ := Wired.read_end hin hread
      · exact Wired.wire_endReading _ _
      · exact Wired.wire_endReading _ _
  | some incoming =>
    obtain ⟨p, message, rest⟩ := incoming
    rw [serves, hin, Option.all_some, Bool.and_eq_true] at h
    obtain ⟨hrunning, hregular⟩ := h
    obtain ⟨hreading, -, hp, -⟩ := Wired.eq_of_incoming hin
    have hrunning' : (c.wired.consumed p rest).running? = some p := by
      obtain ⟨q, hq, hprocess⟩ := Wired.running?_of_isRunning ((Wired.isRunning_consumed c.wired p rest).trans hrunning)
      rw [hq, ← hprocess]
      exact hp
    have hread := Wired.read_incoming (fun m => Keyed.has m c.handlers) hin
    have hwire := Line.wire_dispatch (fun m => Keyed.has m c.handlers) hregular hrunning'
    rcases Line.dispatch_cases (fun m => Keyed.has m c.handlers) message (c.wired.consumed p rest) with
      ⟨-, w, handed, hheeds, hrun⟩ | ⟨hnot, -⟩
    · rw [hrun] at hread hwire
      have hafter : c.after (.move .read) = ({ c with wired := w } : Circuit).hand handed := by
        rw [after, apply, hread]
        cases handed <;> rfl
      rw [hafter]
      refine ⟨?_, fun _ => ?_⟩
      · rw [wire_hand]
        exact hwire
      · exact (hheeds.onward.trans (onward_hand c w handed)).reading.trans hreading
    · rw [Wired.isRunning_consumed, hrunning, Line.bears_of_isRegular hregular] at hnot
      cases hnot

/-- Whatever happens, the responses that a process got are those that its messages asked for. -/
theorem responses_after {e : Event} (h : c.serves e = true) (p : Nat) :
    (c.after e).wired.host.responsesTo p =
      c.wired.host.responsesTo p ++ (c.heard? p e).toList.filterMap Json.response? := by
  by_cases he : e = .move .read
  · subst he
    rw [Host.responsesTo_append (wire_read h).1, response?, heard?]
    congr 1
    cases c.wired.incoming? with
    | none => rfl
    | some incoming =>
      obtain ⟨q, message, rest⟩ := incoming
      rw [Option.bind_some, Option.filter_some]
      cases hresponse : message.response? with
      | none => by_cases hq : q = p <;> simp [hq, hresponse]
      | some response =>
        have hmethod := Json.get?_method_response hresponse
        by_cases hq : q = p <;> simp [hq, hmethod, hresponse]
  · rw [heard?_of_ne he, Option.toList_none, List.filterMap_nil, List.append_nil]
    exact kept_after (Wired.responses_service c.wired p) (fun h _ hwire => (Host.responsesTo_eq hwire p).trans h) he rfl

theorem responses_follow {es : List Event} (h : c.isServed es = true) (p : Nat) :
    (c.follow es).wired.host.responsesTo p =
      c.wired.host.responsesTo p ++ (c.heardFrom p es).filterMap Json.response? := by
  induction es generalizing c with
  | nil => rw [heardFrom, List.filterMap_nil, List.append_nil]; rfl
  | cons e es ih =>
    rw [isServed, Bool.and_eq_true] at h
    rw [heardFrom, List.filterMap_append, ← List.append_assoc, ← responses_after h.1 p]
    exact ih h.2

theorem serves_of_isServed {before later : List Event} {e : Event} (h : c.isServed (before ++ e :: later) = true) :
    (c.follow before).serves e = true := by
  induction before generalizing c with
  | nil => exact (Bool.and_eq_true _ _ |>.mp h).1
  | cons first before ih => exact ih (Bool.and_eq_true _ _ |>.mp h).2

/-- How a line answers its server along a run. -/
structure Responds (c : Circuit) (es : List Event) : Prop where
  /-- As a message is read its response is written, to the process that it came from, or nothing if it asks for none;
  and the line reads on. -/
  each : ∀ before later p message rest, es = before ++ .move .read :: later →
    (c.follow before).wired.incoming? = some (p, message, rest) →
      (c.follow (before ++ [.move .read])).wired.host.wire =
          (c.follow before).wired.host.wire ++ (message.response?.map fun response => (p, response)).toList ∧
        (c.follow (before ++ [.move .read])).wired.line.reading = true
  /-- It asks for one if it has a method and an id. -/
  asked : ∀ before later p message rest, es = before ++ .move .read :: later →
    (c.follow before).wired.incoming? = some (p, message, rest) →
      (message.response?.isSome = true ↔
        (∃ method, message.get? "method" = some method ∧ method ≠ .null) ∧ (message.get? "id").isSome = true)
  /-- So the responses that a process got are those to its messages, one each, in the order in which they were read. -/
  all : ∀ p, (c.follow es).wired.host.responsesTo p =
    c.wired.host.responsesTo p ++ (c.heardFrom p es).filterMap Json.response?
  /-- They are read in the order in which they were written. -/
  order : ∀ p messages, c.wired.host.Holds p messages →
    c.heardFrom p es <+: messages ∨ messages <+: c.heardFrom p es
  /-- None of them has to wait: while the line reads, the first that stands complete can be read. -/
  next : ∀ before later p message messages, es = before ++ later → (c.follow before).wired.line.reading = true →
    (c.follow before).wired.line.closing = false → (c.follow before).wired.line.process = some p →
      (c.follow before).wired.host.Holds p (message :: messages) →
        ∃ rest, (c.follow before).wired.incoming? = some (p, message, rest)

/-- As long as the server runs and its messages are regular, each request of it is answered once, in order, and nothing
else is. -/
theorem requests_answered (c : Circuit) (es : List Event) (h : c.isServed es = true) : Responds c es where
  each before later p message rest hes hin := by
    subst hes
    obtain ⟨hwire, hreading⟩ := wire_read (serves_of_isServed h)
    rw [follow_append]
    refine ⟨?_, hreading (Option.isSome_iff_exists.mpr ⟨_, hin⟩)⟩
    rw [response?, hin] at hwire
    exact hwire
  asked before later p message rest hes hin := by
    subst hes
    have hserves := serves_of_isServed h
    rw [serves, hin, Option.all_some, Bool.and_eq_true] at hserves
    exact Json.isSome_response? hserves.2
  all := responses_follow h
  order p messages hholds := by
    rcases heardFrom_follow hholds es with ⟨left, hleft, -⟩ | hprefix
    · exact .inl ⟨left, hleft⟩
    · exact .inr hprefix
  next before later p message messages _ hreading hclosing hp hholds :=
    Wired.incoming_of_holds hreading hclosing hp hholds

/-- The server asks for this and that, under odd ids too, between a notification, its answer to the greeting and an
answer to nothing, while the line goes on with requests of its own. -/
def inquisitive : List Event :=
  [.start .null .null false] ++
    spoken (.object [("id", .int 1), ("method", .text "client/registerCapability")]) ++
    spoken (answering (.int 1) "greeting") ++
    spoken (.object [("method", .text "vscoq/searchResult")]) ++
    [.ask (.text "vscoq/check") .null .null] ++
    spoken (.object [("id", .text "a"), ("method", .text "workspace/configuration"),
      ("params", .object [("items", .array [.null, .text "coq"])])]) ++
    spoken (.object [("id", .array []), ("method", .text "vscoq/unheardOf")]) ++
    spoken (.object [("id", .null), ("method", .null)]) ++
    [.move (.resume 0 false)] ++
    spoken (.object [("id", .null), ("method", .text "workspace/configuration")])

theorem requests_answered_inquisitive :
    mute.isServed inquisitive = true ∧
      ((mute.follow inquisitive).wired.host.responsesTo 0 ==
        [.object [("jsonrpc", .text "2.0"), ("id", .int 1), ("result", .null)],
          .object [("jsonrpc", .text "2.0"), ("id", .text "a"), ("result", .array [.null, .null])],
          .object [("jsonrpc", .text "2.0"), ("id", .array []), ("error", .object [("code", .int (-32601)),
            ("message", .text "Unsupported method: vscoq/unheardOf")])],
          .object [("jsonrpc", .text "2.0"), ("id", .null), ("result", .array [])]]) = true ∧
      (mute.heardFrom 0 inquisitive).length = 7 ∧ Responds mute inquisitive := by
  have hserved : mute.isServed inquisitive = true := by decide +kernel
  refine ⟨hserved, ?_, ?_, requests_answered mute inquisitive hserved⟩
  · decide +kernel
  · decide +kernel

end Circuit
end CoqConsole
