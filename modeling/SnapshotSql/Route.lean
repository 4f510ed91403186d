import SnapshotSql.Gateway
import SnapshotSql.Text.LetterCase

/-! # The standard gateway

A gateway for every request there is, odd ones included. The target of a request is a URL reference. Its
path is decoded from its percent form and cut at its slashes, and the pieces together with the method
tell which operation is asked for. Slashes in front do not count. A path with doubled slashes stands for
nothing itself, but the answer tells whether the path with single ones does.
-/
namespace SnapshotSql

/-! ## Paths -/

namespace Target

/-- Whether the text before the first colon of a reference is a scheme: a letter, then letters, digits
and a few signs. -/
def isScheme (text : Text) : Bool :=
  let isLetter (c : CodePoint) : Bool :=
    0x41 ≤ c.toNat && c.toNat ≤ 0x5A || 0x61 ≤ c.toNat && c.toNat ≤ 0x7A
  let isSign (c : CodePoint) : Bool :=
    0x30 ≤ c.toNat && c.toNat ≤ 0x39 || c = '+' || c = '-' || c = '.'
  match text with
  | [] => false
  | c :: cs => isLetter c && cs.all fun c => isLetter c || isSign c

def withoutScheme (reference : Text) : Text :=
  let scheme := reference.takeWhile fun c : CodePoint => c ≠ ':'
  match reference.drop scheme.length with
  | _ :: rest => if isScheme scheme then rest else reference
  | [] => reference

def beforeQuery (reference : Text) : Text :=
  reference.takeWhile fun c : CodePoint => c ≠ '?' && c ≠ '#'

/-- Drops an authority, which two slashes announce. -/
def withoutAuthority : Text → Text
  | .char '/' :: .char '/' :: rest => rest.dropWhile fun c : CodePoint => c ≠ '/'
  | path => path

/-- The path of a reference. Tabs and line breaks in a reference do not count. -/
def path (reference : Text) : Text :=
  let reference := reference.filter fun c : CodePoint => c ≠ '\t' && c ≠ '\n' && c ≠ '\r'
  withoutAuthority (beforeQuery (withoutScheme reference))

/-- The bytes of a path in which `%` and two hexadecimal digits stand for a byte. -/
def percentBytes : Text → Bytes
  | [] => []
  | .char '%' :: a :: b :: cs =>
      match Numeral.hexValue? a, Numeral.hexValue? b with
      | some high, some low => .ofNat (16 * high + low) :: percentBytes cs
      | _, _ => 0x25 :: percentBytes (a :: b :: cs)
  | c :: cs => Utf8.encodePoint c ++ percentBytes cs

/-- The path of a target without its leading slashes. A path may be a reference itself. Bytes that are
not UTF-8 become replacement characters. -/
def decodedPath (target : Text) : Text :=
  (Utf8.decode (percentBytes (path (path target)))).dropWhile fun c : CodePoint => c = '/'

def mergeSlashes : Text → Text
  | .char '/' :: .char '/' :: cs => .char '/' :: mergeSlashes cs
  | c :: cs => c :: mergeSlashes cs
  | [] => []

def pieces : Text → List Text
  | [] => [[]]
  | c :: cs =>
      match pieces cs with
      | piece :: more => if c = '/' then [] :: piece :: more else (c :: piece) :: more
      | [] => [[c]]

end Target

/-! ## Addresses -/

namespace Gateway

inductive Method where
  | get
  | post
  | delete
  | options
  | other
  deriving DecidableEq

/-- The method that a word names, in either case. HEAD asks for the same as GET. -/
def Method.ofText (word : Text) : Method :=
  match (Text.upper word).toString with
  | "GET" => .get
  | "HEAD" => .get
  | "POST" => .post
  | "DELETE" => .delete
  | "OPTIONS" => .options
  | _ => .other

def onDatabase (database : Text) : List Text → List (Method × Address)
  | [] => [(.get, .found (.describeDatabase database)), (.delete, .found (.deleteDatabase database))]
  | first :: rest =>
      match first.toString, rest with
      | "tables", [] => [(.get, .found (.listTables database))]
      | "tables", table :: rest =>
          if table.isEmpty then []
          else match rest.map Text.toString with
            | [] => [(.delete, .found (.dropTable database table))]
            | ["schema"] => [(.get, .found (.describeTable database table))]
            | ["data"] => [(.get, .found (.dumpTable database table))]
            | _ => []
      | "execute", [] => [(.post, .found (.execute database))]
      | "execute", [second] =>
          if second = "batch" then [(.post, .found (.executeBatch database))] else []
      | _, _ => []

/-- What is at the pieces of a path, by method. Names of databases and tables are not empty, and the
path of an asset has no line break behind its first character; there is no asset. -/
def atPieces : List Text → List (Method × Address)
  | [] => []
  | first :: rest =>
      match first.toString, rest with
      | "api", [second] =>
          match second.toString with
          | "databases" => [(.get, .found .listDatabases), (.post, .found .createDatabase)]
          | "health" => [(.get, .found .health)]
          | "info" => [(.get, .found .info)]
          | _ => []
      | "api", second :: name :: rest =>
          if second = "databases" && !name.isEmpty then onDatabase name rest else []
      | "static", file :: rest =>
          if file.isEmpty || (file.drop 1 :: rest).any (·.contains '\n') then []
          else [(.get, .unknown)]
      | _, _ => []

/-- What is at a path for a method. Wherever there is something, OPTIONS is answered by the gateway. -/
def atPath (path : Text) (method : Method) : Option Address :=
  let here := atPieces (Target.pieces path)
  if method = .options && !here.isEmpty then some (.answered 200) else here.lookup method

def addressOf (method : Method) (path : Text) : Address :=
  match atPath path method with
  | some address => address
  | none =>
      let merged := Target.mergeSlashes path
      if (atPath merged method).isSome then .answered 308
      else if (atPath path .options).isSome || (atPath merged .options).isSome then .otherMethod
      else .unknown

end Gateway

/-! ## Plain paths -/

def Text.isPathChar (c : CodePoint) : Bool :=
  c = '/' || isPlainChar c

section
variable {path : Text} {c : CodePoint}

theorem Text.ne_of_isPathChar {other : CodePoint} (h : isPathChar c = true) (hother : isPathChar other = false) :
    c ≠ other := by
  rintro rfl
  rw [h] at hother
  cases hother

theorem Text.toNat_lt_of_isPathChar (h : isPathChar c = true) : c.toNat < 0x80 := by
  simp only [isPathChar, isPlainChar, Bool.or_eq_true, Bool.and_eq_true, decide_eq_true_eq] at h
  rcases h with rfl | (((h | h) | h) | rfl) | rfl
  · decide
  · omega
  · omega
  · omega
  · decide
  · decide

theorem Text.isPlainChar_of_mem {text : Text} (h : isPlain text = true) (hc : c ∈ text) : isPlainChar c = true := by
  rw [isPlain, Bool.and_eq_true] at h
  exact List.all_eq_true.mp h.2 c hc

theorem Operation.isPathChar_of_mem_path {operation : Operation}
    (h : ∀ piece ∈ operation.route.2, Text.isPlain piece = true) (hc : c ∈ operation.path) :
    Text.isPathChar c = true := by
  obtain ⟨piece, hpiece, hc⟩ := List.mem_flatMap.mp hc
  rcases List.mem_cons.mp hc with rfl | hc
  · rfl
  · rw [Text.isPathChar, Text.isPlainChar_of_mem (h piece hpiece) hc, Bool.or_true]

namespace Target

theorem takeWhile_eq_self {p : CodePoint → Bool} (h : ∀ c ∈ path, p c = true) : path.takeWhile p = path := by
  have happend : (path ++ []).takeWhile p = path ++ [] := List.takeWhile_append_of_pos h
  rwa [List.append_nil] at happend

theorem withoutScheme_of_path (h : ∀ c ∈ path, Text.isPathChar c = true) : withoutScheme path = path := by
  have hscheme : path.takeWhile (fun c : CodePoint => c ≠ ':') = path :=
    takeWhile_eq_self fun c hc => decide_eq_true (Text.ne_of_isPathChar (h c hc) (by decide))
  unfold withoutScheme
  dsimp only
  rw [hscheme, List.drop_length]

theorem beforeQuery_of_path (h : ∀ c ∈ path, Text.isPathChar c = true) : beforeQuery path = path := by
  refine takeWhile_eq_self fun c hc => ?_
  rw [Bool.and_eq_true]
  exact ⟨decide_eq_true (Text.ne_of_isPathChar (h c hc) (by decide)),
    decide_eq_true (Text.ne_of_isPathChar (h c hc) (by decide))⟩

/-- A path that begins with one slash is the path of itself. -/
theorem path_of_path (h : ∀ d ∈ .char '/' :: c :: path, Text.isPathChar d = true) (hc : c ≠ '/') :
    Target.path (.char '/' :: c :: path) = .char '/' :: c :: path := by
  have hfilter : (.char '/' :: c :: path : Text).filter (fun c : CodePoint => c ≠ '\t' && c ≠ '\n' && c ≠ '\r') =
      .char '/' :: c :: path := by
    refine List.filter_eq_self.mpr fun d hd => ?_
    simp only [Bool.and_eq_true]
    exact ⟨⟨decide_eq_true (Text.ne_of_isPathChar (h d hd) (by decide)),
      decide_eq_true (Text.ne_of_isPathChar (h d hd) (by decide))⟩,
      decide_eq_true (Text.ne_of_isPathChar (h d hd) (by decide))⟩
  unfold Target.path
  dsimp only
  rw [hfilter, withoutScheme_of_path h, beforeQuery_of_path h]
  unfold withoutAuthority
  split
  · next heq => 
    injection heq with _ heq
    injection heq with heq
    exact absurd heq hc
  · rfl

theorem percentBytes_of_path (h : ∀ c ∈ path, Text.isPathChar c = true) :
    percentBytes path = path.flatMap Utf8.encodePoint := by
  induction path with
  | nil => rfl
  | cons c path ih =>
    have hc : c ≠ '%' := Text.ne_of_isPathChar (h c List.mem_cons_self) (by decide)
    rw [List.flatMap_cons, ← ih fun d hd => h d (List.mem_cons_of_mem c hd), percentBytes]
    exact fun _ _ _ heq => absurd heq hc

theorem points_of_path (h : ∀ c ∈ path, Text.isPathChar c = true) :
    Utf8.points false none (path.flatMap Utf8.encodePoint) = path.map some := by
  induction path with
  | nil => rfl
  | cons c path ih =>
    have hlt := Text.toNat_lt_of_isPathChar (h c List.mem_cons_self)
    have hbyte : (UInt8.ofNat c.toNat).toNat = c.toNat := by
      rw [UInt8.toNat_ofNat']
      omega
    have hencode : Utf8.encodePoint c = [UInt8.ofNat c.toNat] := by
      simp [Utf8.encodePoint, hlt]
    rw [List.flatMap_cons, hencode, List.singleton_append, Utf8.points, hbyte]
    simp only [Utf8.step, Utf8.first, if_pos hlt, c.ofNat_toNat]
    rw [ih fun d hd => h d (List.mem_cons_of_mem c hd)]
    rfl

theorem decodedPath_of_path (h : ∀ d ∈ .char '/' :: c :: path, Text.isPathChar d = true) (hc : c ≠ '/') :
    decodedPath (.char '/' :: c :: path) = c :: path := by
  rw [decodedPath, path_of_path h hc, path_of_path h hc, percentBytes_of_path h, Utf8.decode, points_of_path h]
  simp [hc, Function.comp_def]

theorem pieces_of_slashes {first : Text} {more : List Text} (hfirst : ∀ c ∈ first, c ≠ '/')
    (hmore : ∀ piece ∈ more, ∀ c ∈ piece, c ≠ '/') :
    pieces (first ++ more.flatMap fun piece => .char '/' :: piece) = first :: more := by
  induction more generalizing first with
  | nil =>
    rw [List.flatMap_nil, List.append_nil]
    induction first with
    | nil => rfl
    | cons c first ih =>
      have hc := hfirst c List.mem_cons_self
      rw [pieces, ih fun d hd => hfirst d (List.mem_cons_of_mem c hd)]
      exact if_neg hc
  | cons second more ihMore =>
    have hpieces := ihMore (hmore second List.mem_cons_self) fun piece hpiece =>
      hmore piece (List.mem_cons_of_mem second hpiece)
    rw [List.flatMap_cons]
    induction first with
    | nil =>
      rw [List.nil_append, List.cons_append, pieces, hpieces]
      exact if_pos rfl
    | cons c first ih =>
      have hc := hfirst c List.mem_cons_self
      rw [List.cons_append, pieces, ih fun d hd => hfirst d (List.mem_cons_of_mem c hd)]
      exact if_neg hc

end Target

end

/-! ## Routes -/

namespace Gateway

theorem lookup_atPieces {operation : Operation} (h : ∀ piece ∈ operation.route.2, Text.isPlain piece = true) :
    (atPieces operation.route.2).lookup (.ofText operation.route.1) = some (.found operation) := by
  have hname : ∀ name ∈ operation.route.2, ∃ c cs, name = c :: cs := by
    intro name hname
    cases name with
    | nil => exact absurd (h [] hname) Bool.false_ne_true
    | cons c cs => exact ⟨c, cs, rfl⟩
  cases operation with
  | listDatabases | createDatabase | health | info => rfl
  | describeDatabase database | deleteDatabase database | listTables database | execute database
  | executeBatch database =>
    obtain ⟨c, cs, rfl⟩ := hname database (by simp [Operation.route])
    rfl
  | dropTable database table | describeTable database table | dumpTable database table =>
    obtain ⟨c, cs, rfl⟩ := hname database (by simp [Operation.route])
    obtain ⟨d, ds, rfl⟩ := hname table (by simp [Operation.route])
    rfl

theorem addressOf_path {operation : Operation} (h : ∀ piece ∈ operation.route.2, Text.isPlain piece = true) :
    addressOf (.ofText operation.route.1) (Target.decodedPath operation.path) = .found operation := by
  have hchars : ∀ c ∈ operation.path, Text.isPathChar c = true := fun c hc =>
    Operation.isPathChar_of_mem_path h hc
  have hslash : ∀ piece ∈ operation.route.2, ∀ c ∈ piece, c ≠ '/' := by
    rintro piece hpiece c hc rfl
    exact absurd (Text.isPlainChar_of_mem (h piece hpiece) hc) (by decide)
  have hother : decide (Method.ofText operation.route.1 = .options) = false := by
    cases operation <;> rfl
  -- Every path begins with the piece `api`.
  obtain ⟨more, hroute⟩ : ∃ more, operation.route.2 = Text.ofString "api" :: more := by
    cases operation <;> exact ⟨_, rfl⟩
  have hdecoded : Target.decodedPath operation.path =
      Text.ofString "api" ++ more.flatMap fun piece => .char '/' :: piece := by
    unfold Operation.path at hchars ⊢
    rw [hroute] at hchars ⊢
    exact Target.decodedPath_of_path hchars (by decide)
  have hpieces : Target.pieces (Target.decodedPath operation.path) = operation.route.2 := by
    rw [hdecoded, hroute]
    rw [hroute] at hslash
    exact Target.pieces_of_slashes (hslash _ List.mem_cons_self) fun piece hpiece =>
      hslash piece (List.mem_cons_of_mem _ hpiece)
  have hhere : atPath (Target.decodedPath operation.path) (.ofText operation.route.1) = some (.found operation) := by
    rw [atPath, hpieces, hother, lookup_atPieces h]
    rfl
  rw [addressOf, hhere]

/-! ## The gateway itself -/

/-- JSON content is announced as `application/json` or as another application type in JSON. -/
def isJsonContent (contentType : Text) : Bool :=
  let media := Text.trim (contentType.takeWhile fun c : CodePoint => c ≠ ';')
  let media := media.map Text.lowerChar
  media = Text.ofString "application/json" ||
    ((Text.ofString "application/").isPrefixOf media && (Text.ofString "+json").isSuffixOf media)

/-- A gateway that knows no path but the routes and those that are written for one of them, and that
reads JSON of any size. -/
def standard : Gateway where
  address request := addressOf (.ofText request.method) (Target.decodedPath request.target)
  body? request :=
    some (if isJsonContent request.contentType then (Json.ofBytes? request.body).getD .null else .null)
  routes request operation h := by rw [h.method, h.target, addressOf_path h.plain]
  reads request htype htexts := by
    have hcontent : isJsonContent (Text.ofString "application/json") = true := by decide
    rw [htype, hcontent]
    cases hbody : Json.ofBytes? request.body with
    | none =>
      rw [hbody] at htexts
      cases htexts
    | some json => rfl

end Gateway

end SnapshotSql
