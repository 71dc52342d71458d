/-
  The JSON converters of the identifiers.

  There are two families of them, one in the domain and one in the infrastructure, and they do the
  same.  A node, a distance and a player are read back as they were written.  An edge is written as its
  key, the values of its two nodes with a dash between them, and read by splitting the key at EVERY
  dash: a negative value starts with one, so what stands before the first dash is then no number.

  The converters see tokens.  The text of a token is what .NET's own reader and writer make of it; a
  string is Unicode text, and a negative number starts with a hyphen, as in the invariant culture.


  The condition under which an identifier round-trips is about edges only, and about the sign of the
  smaller node: the key of `EdgeId.of` starts with it.
-/
import HexWar.Domain.Basic
import HexWar.Lib.Decimal

namespace HexWar

open Lib

/-! ## The reader

The reader's methods as far as the converters use them, with the exceptions they throw. -/

/-- The tokens of a JSON text; a number as it is written. -/
inductive JsonToken where
  | startObject
  | endObject
  | startArray
  | endArray
  | propertyName (name : String)
  | string (value : String)
  | number (text : String)
  | true
  | false
  | null
deriving DecidableEq, Repr

/-- The exceptions, by their type. -/
inductive JsonReadException where
  | jsonException (message : String)
  /-- The text ends too early. -/
  | jsonReaderException
  | invalidOperationException
  | formatException
  | overflowException
  | argumentNullException
  | indexOutOfRangeException
deriving DecidableEq, Repr

/-- What reading comes to: a value, or an exception. -/
abbrev Parsed := Except JsonReadException

namespace JsonToken

/-- The name of a token's type, as it stands in an error. -/
def tokenType : JsonToken → String
  | startObject => "StartObject"
  | endObject => "EndObject"
  | startArray => "StartArray"
  | endArray => "EndArray"
  | propertyName _ => "PropertyName"
  | string _ => "String"
  | number _ => "Number"
  | true => "True"
  | false => "False"
  | null => "Null"

/-- GetString, which reads names as well as values, and null as null. -/
def getString : JsonToken → Parsed (Option String)
  | string value => .ok (some value)
  | propertyName name => .ok (some name)
  | null => .ok none
  | _ => .error .invalidOperationException

end JsonToken

/-- A value of type int. -/
def IsInt32 (value : Int) : Prop := -2 ^ 31 ≤ value ∧ value < 2 ^ 31

instance (value : Int) : Decidable (IsInt32 value) := inferInstanceAs (Decidable (_ ∧ _))

/-- GetInt32: the number must be an integer, and of 32 bits. -/
def JsonToken.getInt32 : JsonToken → Parsed Int
  | number text =>
    match takeInteger text.toList with
    | some (value, []) => if IsInt32 value then .ok value else .error .formatException
    | _ => .error .formatException
  | _ => .error .invalidOperationException

/-- White space around a number: the tab to the carriage return, and the space. -/
def isWhite (c : Char) : Bool := c.toNat = 0x20 || (0x09 ≤ c.toNat && c.toNat ≤ 0x0d)

/-- int.Parse, which also forgives nulls at the end. -/
def parseInt (s : String) : Parsed Int :=
  match takeInteger (s.toList.dropWhile isWhite) with
  | some (value, rest) =>
    if (rest.dropWhile isWhite).dropWhile (·.toNat = 0) = [] then
      if IsInt32 value then .ok value else .error .overflowException
    else .error .formatException
  | none => .error .formatException

/-- int.TryParse. -/
def tryParseInt (s : String) : Option Int := (parseInt s).toOption

/-- Split('-'). -/
def splitAtDashes (s : String) : List String := (s.toList.splitOn '-').map String.ofList

/-- An element of an array. -/
def elementAt (parts : List String) (index : Nat) : Parsed String :=
  match parts[index]? with
  | some part => .ok part
  | none => .error .indexOutOfRangeException

/-- The reader stands at a token. -/
structure Utf8JsonReader where
  token : JsonToken
  /-- and those that come after it. -/
  following : List JsonToken
deriving DecidableEq, Repr

/-- The loop over the properties of an object.  What is nested in a property is taken for more of
    them. -/
def readProperties {σ : Type} (set : String → JsonToken → σ → Parsed σ) :
    σ → List JsonToken → Parsed (σ × Utf8JsonReader)
  | s, .endObject :: following => .ok (s, ⟨.endObject, following⟩)
  | s, .propertyName propName :: token :: following => do
    let s ← set propName token s
    readProperties set s following
  | _, [.propertyName _] => .error .jsonReaderException
  | s, _ :: following => readProperties set s following
  | _, [] => .error .jsonReaderException

/-! ## The converters

Each of them as it is written, with the tokens it accepts and the errors it throws for the
others. -/

/-- A converter reads a value where the reader stands, and leaves it at the value's last token. -/
structure JsonConverter (T : Type) where
  read : Utf8JsonReader → Parsed (T × Utf8JsonReader)
  write : T → JsonToken

/-- A converter whose values can name properties. -/
structure NameConverter (T : Type) extends JsonConverter T where
  readAsPropertyName : Utf8JsonReader → Parsed T
  writeAsPropertyName : T → JsonToken

/-- The error for a token that no case accepts. -/
def unexpectedToken {α : Type} (what : String) (token : JsonToken) : Parsed α :=
  .error (.jsonException ("Unexpected token type for " ++ what ++ ": " ++ token.tokenType))

/-- The two int.Parse of an edge's key. -/
def parseEdgeId (key : String) : Parsed EdgeId := do
  let parts := splitAtDashes key
  let fromNode ← elementAt parts 0 >>= parseInt
  let toNode ← elementAt parts 1 >>= parseInt
  return EdgeId.of ⟨fromNode⟩ ⟨toNode⟩

/-- An int as a number or in a string. -/
def JsonToken.getInt32OrParse (token : JsonToken) : Parsed Int :=
  match token with
  | number _ => token.getInt32
  | _ => do
    match ← token.getString with
    | some s => parseInt s
    | none => .error .argumentNullException

section Converters

variable (toLower : String → String)

/-- An edge is a string, or an object with two ends. -/
def edgeIdJsonConverter : NameConverter EdgeId where
  read reader :=
    match reader.token with
    | .string key => return (← parseEdgeId key, reader)
    | .startObject => do
      let set (propName : String) (token : JsonToken) (ends : Int × Int) : Parsed (Int × Int) := do
        if toLower propName = "from" then return (← token.getInt32OrParse, ends.2)
        else if toLower propName = "to" then return (ends.1, ← token.getInt32OrParse)
        else return ends
      let (ends, reader) ← readProperties set (0, 0) reader.following
      return (EdgeId.of ⟨ends.1⟩ ⟨ends.2⟩, reader)
    | token => unexpectedToken "EdgeId" token
  write value := .string value.key
  readAsPropertyName reader := do
    match ← reader.token.getString with
    | some str => parseEdgeId str
    | none => .error (.jsonException "Null edge ID")
  writeAsPropertyName value := .propertyName value.key

/-- The object that holds an int under one name. -/
def readIntObject (name : String) (tokens : List JsonToken) : Parsed (Int × Utf8JsonReader) :=
  let set (propName : String) (token : JsonToken) (value : Int) : Parsed Int :=
    if toLower propName = name then token.getInt32 else .ok value
  readProperties set 0 tokens

/-- The text without the letter that ToString puts before a node. -/
def withoutLetter (str : String) : String :=
  match str.toList with
  | 'N' :: rest => String.ofList rest
  | 'n' :: rest => String.ofList rest
  | _ => str

/-- The name of a property is a number, perhaps with the letter. -/
def parseNodeName : Option String → Parsed NodeId
  | some str =>
    match tryParseInt (withoutLetter str) with
    | some val => .ok ⟨val⟩
    | none =>
      .error (.jsonException
        ("Cannot deserialize '" ++ withoutLetter str ++ "' as NodeId property name"))
  | none => .error (.jsonException "Cannot deserialize '' as NodeId property name")

/-- A node is a number, or an object with a value. -/
def nodeIdJsonConverter : NameConverter NodeId where
  read reader :=
    match reader.token with
    | .number text => return (⟨← (JsonToken.number text).getInt32⟩, reader)
    | .startObject => do
      let (value, reader) ← readIntObject toLower "value" reader.following
      return (⟨value⟩, reader)
    | token => unexpectedToken "NodeId" token
  write value := .number (toString value.value)
  readAsPropertyName reader := reader.token.getString >>= parseNodeName
  writeAsPropertyName value := .propertyName (toString value.value)

/-- A distance is a number, or an object with its rounds. -/
def distanceJsonConverter : JsonConverter Distance where
  read reader :=
    match reader.token with
    | .number text => return (⟨← (JsonToken.number text).getInt32⟩, reader)
    | .startObject => do
      let (value, reader) ← readIntObject toLower "roundsrequired" reader.following
      return (⟨value⟩, reader)
    | token => unexpectedToken "Distance" token
  write value := .number (toString value.roundsRequired)

/-- A player is a string, or an object with a value. -/
def playerIdJsonConverter : NameConverter PlayerId where
  read reader :=
    match reader.token with
    | .string value => return (⟨value⟩, reader)
    | .startObject => do
      let set (propName : String) (token : JsonToken) (value : String) : Parsed String := do
        if toLower propName = "value" then return (← token.getString).getD ""
        else return value
      let (value, reader) ← readProperties set "" reader.following
      return (⟨value⟩, reader)
    | token => unexpectedToken "PlayerId" token
  write value := .string value.value
  readAsPropertyName reader := return ⟨(← reader.token.getString).getD ""⟩
  writeAsPropertyName value := .propertyName value.value

end Converters

/-! ## The two families

The two namespaces have the same code under the same names. -/

/-- The converters of a family. -/
structure Converters where
  edgeId : NameConverter EdgeId
  nodeId : NameConverter NodeId
  distance : JsonConverter Distance
  playerId : NameConverter PlayerId

/-- Those of HexWar.Infrastructure.Serialization. -/
def infrastructureConverters (toLower : String → String) : Converters where
  edgeId := edgeIdJsonConverter toLower
  nodeId := nodeIdJsonConverter toLower
  distance := distanceJsonConverter toLower
  playerId := playerIdJsonConverter toLower

/-- Those of HexWar.Domain.Serialization. -/
def domainConverters (toLower : String → String) : Converters where
  edgeId := edgeIdJsonConverter toLower
  nodeId := nodeIdJsonConverter toLower
  distance := distanceJsonConverter toLower
  playerId := playerIdJsonConverter toLower

/-- Which of the two reads or writes. -/
inductive ConverterFamily where
  | infrastructure
  | domain
deriving DecidableEq, Repr

/-- The converters of a process in whose culture `toLower` is ToLower. -/
def ConverterFamily.converters (toLower : String → String) : ConverterFamily → Converters
  | infrastructure => infrastructureConverters toLower
  | domain => domainConverters toLower

/-! ## Round trips

The writer and the reader need not be of one family, nor of one culture. -/

/-- What `w` writes as a value, `r` reads as the same value; it stays on the token. -/
def JsonConverter.RoundTrips {T : Type} (w r : JsonConverter T) (value : T) : Prop :=
  ∀ following, r.read ⟨w.write value, following⟩ = .ok (value, ⟨w.write value, following⟩)

/-- What `w` writes as the name of a property, `r` reads as the same value. -/
def NameConverter.NameRoundTrips {T : Type} (w r : NameConverter T) (value : T) : Prop :=
  ∀ following, r.readAsPropertyName ⟨w.writeAsPropertyName value, following⟩ = .ok value

/-- An identifier, of ints and strings; an edge by the nodes it was built from, in either order. -/
inductive Identifier where
  /-- The value of a node is an int, so it may be negative. -/
  | edgeId (fromNode toNode : Int32)
  | nodeId (value : Int32)
  | distance (roundsRequired : Int32)
  | playerId (value : String)

namespace Identifier

/-- **The identifier round-trips** from the converters `w` to the converters `r`. -/
def RoundTrips (w r : Converters) : Identifier → Prop
  | edgeId fromNode toNode =>
    let id := EdgeId.of ⟨fromNode.toInt⟩ ⟨toNode.toInt⟩
    w.edgeId.RoundTrips r.edgeId.toJsonConverter id ∧ w.edgeId.NameRoundTrips r.edgeId id
  | nodeId value =>
    w.nodeId.RoundTrips r.nodeId.toJsonConverter ⟨value.toInt⟩ ∧
      w.nodeId.NameRoundTrips r.nodeId ⟨value.toInt⟩
  | distance roundsRequired => w.distance.RoundTrips r.distance ⟨roundsRequired.toInt⟩
  | playerId value =>
    w.playerId.RoundTrips r.playerId.toJsonConverter ⟨value⟩ ∧
      w.playerId.NameRoundTrips r.playerId ⟨value⟩

/-- **The condition**: no node of an edge has a negative value. -/
def Undashed : Identifier → Prop
  | edgeId fromNode toNode => 0 ≤ fromNode.toInt ∧ 0 ≤ toNode.toInt
  | _ => True

end Identifier

/-! ## Numbers

A number is written in decimal, with a minus before it if it is negative. -/

/-- A value of type int is one. -/
theorem isInt32_toInt (value : Int32) : IsInt32 value.toInt := ⟨value.le_toInt, value.toInt_lt⟩

/-- A digit is not skipped as white space. -/
theorem isWhite_of_digit {c : Char} (hc : c.isDigit = true) : isWhite c = false := by
  obtain ⟨hzero, hnine⟩ := Char.isDigit_iff_toNat.mp hc
  have hzero : 48 ≤ c.toNat := hzero
  simp only [isWhite, Bool.or_eq_false_iff, Bool.and_eq_false_iff, decide_eq_false_iff_not]
  omega

/-- Before a number that was written nothing is skipped. -/
theorem dropWhile_white (n : Int) : (toString n).toList.dropWhile isWhite = (toString n).toList := by
  obtain ⟨c, cs, hn, hc⟩ := toString_cons n
  have hwhite : isWhite c = false := by
    rcases hc with rfl | hc
    · decide
    · exact isWhite_of_digit hc
  rw [hn, List.dropWhile_cons_of_neg (by rw [hwhite]; decide)]

/-- A number has no letter before it. -/
theorem withoutLetter_toString (n : Int) : withoutLetter (toString n) = toString n := by
  obtain ⟨c, cs, hn, hc⟩ := toString_cons n
  have hN : c ≠ 'N' := by
    rintro rfl
    rcases hc with hc | hc <;> cases hc
  have hn' : c ≠ 'n' := by
    rintro rfl
    rcases hc with hc | hc <;> cases hc
  rw [withoutLetter, hn]
  split
  · rename_i heq
    injection heq with heq
    exact absurd heq hN
  · rename_i heq
    injection heq with heq
    exact absurd heq hn'
  · rfl

/-- GetInt32 of the number that was written. -/
theorem getInt32_toString {value : Int} (h : IsInt32 value) :
    (JsonToken.number (toString value)).getInt32 = .ok value := by
  rw [JsonToken.getInt32, takeInteger_toString]
  exact if_pos h

/-- int.Parse of the number that was written. -/
theorem parseInt_toString {value : Int} (h : IsInt32 value) :
    parseInt (toString value) = .ok value := by
  rw [parseInt, dropWhile_white, takeInteger_toString]
  exact if_pos h

/-- A text without a number at its front is not parsed. -/
theorem parseInt_nil : parseInt "" = .error .formatException := by decide

/-! ## The key of an edge

Where the key is split depends on how many dashes there are in it. -/

/-- The key, character by character. -/
theorem toList_key (e : EdgeId) : e.key.toList =
    (toString e.fromNode.value).toList ++ '-' :: (toString e.toNode.value).toList := by
  show (toString e.fromNode.value ++ "-" ++ toString e.toNode.value).toList = _
  rw [String.toList_append, String.toList_append, List.append_assoc]
  rfl

/-- Of nodes that are not negative, the key falls into the two numbers. -/
theorem splitAtDashes_key {e : EdgeId} (hfrom : 0 ≤ e.fromNode.value) (hto : 0 ≤ e.toNode.value) :
    splitAtDashes e.key = [toString e.fromNode.value, toString e.toNode.value] := by
  rw [splitAtDashes, toList_key, List.splitOn_append_cons_self,
    List.splitOn_eq_singleton (minus_notMem_toString hfrom),
    List.splitOn_eq_singleton (minus_notMem_toString hto)]
  show [String.ofList _, String.ofList _] = _
  rw [String.ofList_toList, String.ofList_toList]

/-- Of a negative node, there is nothing before the first dash. -/
theorem splitAtDashes_negative {e : EdgeId} (hfrom : e.fromNode.value < 0) :
    ∃ parts, splitAtDashes e.key = "" :: parts := by
  obtain ⟨digits, hdigits⟩ := toString_of_neg hfrom
  rw [splitAtDashes, toList_key, hdigits, List.cons_append]
  have hsplit := List.splitOn_append_cons_self (a := '-') []
    (digits ++ '-' :: (toString e.toNode.value).toList)
  rw [List.nil_append] at hsplit
  rw [hsplit, List.splitOn_nil]
  exact ⟨_, rfl⟩

/-- The ends of an edge make the edge. -/
theorem EdgeId.of_ends (e : EdgeId) : EdgeId.of e.fromNode e.toNode = e := by
  by_cases hlt : e.fromNode.value < e.toNode.value
  · rw [of, dif_pos hlt]
  · have hsame : e.fromNode = e.toNode := by
      have hordered := e.ordered
      have hvalue : e.fromNode.value = e.toNode.value := by omega
      exact congrArg NodeId.mk hvalue
    rw [of, dif_neg hlt]
    exact EdgeId.ext hsame.symm hsame

/-- The key of an edge without negative nodes is read as the edge; -/
theorem parseEdgeId_key {e : EdgeId} (hfrom : IsInt32 e.fromNode.value) (hto : IsInt32 e.toNode.value)
    (hnonneg : 0 ≤ e.fromNode.value) : parseEdgeId e.key = .ok e := by
  rw [parseEdgeId, splitAtDashes_key hnonneg (Int.le_trans hnonneg e.ordered)]
  show (parseInt (toString e.fromNode.value) >>= fun fromNode =>
    parseInt (toString e.toNode.value) >>= fun toNode => .ok (EdgeId.of ⟨fromNode⟩ ⟨toNode⟩)) = _
  rw [parseInt_toString hfrom, parseInt_toString hto]
  show Except.ok (EdgeId.of e.fromNode e.toNode) = _
  rw [e.of_ends]

/-- that of one with a negative node is not read at all. -/
theorem parseEdgeId_negative {e : EdgeId} (hfrom : e.fromNode.value < 0) :
    parseEdgeId e.key = .error .formatException := by
  obtain ⟨parts, hparts⟩ := splitAtDashes_negative hfrom
  rw [parseEdgeId, hparts]
  show (parseInt "" >>= _) = _
  rw [parseInt_nil]
  rfl

/-! ## Each identifier

The tokens in between stand for a text that another process may have written, so the cultures may
differ. -/

section RoundTrips

variable (toLower toLower' : String → String)

/-- The families do the same. -/
theorem ConverterFamily.converters_eq (family : ConverterFamily) :
    family.converters toLower = domainConverters toLower := by
  cases family <;> rfl

/-- A node round-trips as a value. -/
theorem nodeId_roundTrips {id : NodeId} (h : IsInt32 id.value) :
    (nodeIdJsonConverter toLower).RoundTrips (nodeIdJsonConverter toLower').toJsonConverter id := by
  intro following
  show ((JsonToken.number (toString id.value)).getInt32 >>= _) = _
  rw [getInt32_toString h]
  rfl

/-- A number that is written as a name is read as the node. -/
theorem parseNodeName_toString {value : Int} (h : IsInt32 value) :
    parseNodeName (some (toString value)) = .ok ⟨value⟩ := by
  have hparse : tryParseInt (withoutLetter (toString value)) = some value := by
    rw [withoutLetter_toString, tryParseInt, parseInt_toString h]
    rfl
  delta parseNodeName
  dsimp only
  rw [hparse]

/-- So a node round-trips as a name, too. -/
theorem nodeId_nameRoundTrips {id : NodeId} (h : IsInt32 id.value) :
    (nodeIdJsonConverter toLower).NameRoundTrips (nodeIdJsonConverter toLower') id := by
  intro following
  simp only [nodeIdJsonConverter, JsonToken.getString, bind, Except.bind, parseNodeName_toString h]

/-- A distance round-trips as a value. -/
theorem distance_roundTrips {distance : Distance} (h : IsInt32 distance.roundsRequired) :
    (distanceJsonConverter toLower).RoundTrips (distanceJsonConverter toLower') distance := by
  intro following
  show ((JsonToken.number (toString distance.roundsRequired)).getInt32 >>= _) = _
  rw [getInt32_toString h]
  rfl

/-- An edge round-trips, both ways, if its key is parsed. -/
theorem edgeId_roundTrips {id : EdgeId} (h : parseEdgeId id.key = .ok id) :
    (edgeIdJsonConverter toLower).RoundTrips (edgeIdJsonConverter toLower').toJsonConverter id ∧
      (edgeIdJsonConverter toLower).NameRoundTrips (edgeIdJsonConverter toLower') id := by
  constructor
  · intro following
    show (parseEdgeId id.key >>= _) = _
    rw [h]
    rfl
  · intro following
    exact h

/-- Only then: what reads it as a value parses the key. -/
theorem parseEdgeId_of_roundTrips {id : EdgeId}
    (h : (edgeIdJsonConverter toLower).RoundTrips (edgeIdJsonConverter toLower').toJsonConverter id) :
    parseEdgeId id.key ≠ .error .formatException := by
  intro hkey
  have hread := h []
  change (parseEdgeId id.key >>= _) = _ at hread
  rw [hkey] at hread
  cases hread

end RoundTrips

/-- The smaller of two nodes is the first of their edge. -/
theorem of_nonneg_iff (m n : NodeId) :
    0 ≤ (EdgeId.of m n).fromNode.value ↔ 0 ≤ m.value ∧ 0 ≤ n.value := by
  rw [EdgeId.of]
  split
  · show 0 ≤ m.value ↔ _
    omega
  · show 0 ≤ n.value ↔ _
    omega

theorem of_isInt32 {m n : NodeId} (hm : IsInt32 m.value) (hn : IsInt32 n.value) :
    IsInt32 (EdgeId.of m n).fromNode.value ∧ IsInt32 (EdgeId.of m n).toNode.value := by
  rw [EdgeId.of]
  split
  · exact ⟨hm, hn⟩
  · exact ⟨hn, hm⟩

/-- **When an identifier round-trips**: exactly if it is no edge with a negative node, whichever family
    writes it and whichever reads it. -/
theorem identifiers_roundTrip_iff (toLower toLower' : String → String)
    (writer reader : ConverterFamily) (x : Identifier) :
    x.RoundTrips (writer.converters toLower) (reader.converters toLower') ↔ x.Undashed := by
  rw [ConverterFamily.converters_eq, ConverterFamily.converters_eq]
  cases x with
  | edgeId fromNode toNode =>
    obtain ⟨hfrom, hto⟩ := of_isInt32 (m := ⟨fromNode.toInt⟩) (n := ⟨toNode.toInt⟩)
      (isInt32_toInt fromNode) (isInt32_toInt toNode)
    have hnonneg := of_nonneg_iff ⟨fromNode.toInt⟩ ⟨toNode.toInt⟩
    constructor
    · rintro ⟨hvalue, -⟩
      refine hnonneg.mp (Int.not_lt.mp fun hnegative => ?_)
      exact parseEdgeId_of_roundTrips toLower toLower' hvalue (parseEdgeId_negative hnegative)
    · intro h
      exact edgeId_roundTrips toLower toLower' (parseEdgeId_key hfrom hto (hnonneg.mpr h))
  | nodeId value =>
    exact iff_of_true ⟨nodeId_roundTrips toLower toLower' (isInt32_toInt value),
      nodeId_nameRoundTrips toLower toLower' (isInt32_toInt value)⟩ trivial
  | distance roundsRequired =>
    exact iff_of_true (distance_roundTrips toLower toLower' (isInt32_toInt roundsRequired)) trivial
  | playerId value => exact iff_of_true ⟨fun _ => rfl, fun _ => rfl⟩ trivial

/-- The edge between the nodes -1 and 5 is written as "-1-5", which no converter reads. -/
theorem negative_edge_unreadable :
    (domainConverters id).edgeId.write (EdgeId.of ⟨-1⟩ ⟨5⟩) = .string "-1-5" ∧
      (domainConverters id).edgeId.read ⟨.string "-1-5", []⟩ = .error .formatException ∧
      ¬ (Identifier.edgeId (-1) 5).RoundTrips (domainConverters id) (domainConverters id) := by
  refine ⟨rfl, ?_, ?_⟩
  · rfl
  · rintro ⟨hvalue, -⟩
    exact parseEdgeId_of_roundTrips id id hvalue (parseEdgeId_negative (by decide))

end HexWar
