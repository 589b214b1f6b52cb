import SvcLbMux.Library.Base64
import SvcLbMux.Library.Text

namespace SvcLbMux

open Py

def isAscii (s : String) : Bool := s.toList.all fun c => c.toNat < 128

/-- `base64.b64decode(s)`; `none` is an exception. -/
def b64decode (s : String) : Option (List UInt8) :=
  if isAscii s then Base64.decode s.toList else none

/-- `data.decode("utf-8")`; `none` is the `UnicodeDecodeError`. -/
def decodeUtf8 (data : List UInt8) : Option String := String.fromUTF8? ⟨data.toArray⟩

def encodeUtf8 (s : String) : List UInt8 := s.toByteArray.data.toList

/-- `hmac.compare_digest(a, b)`; `none` is the `TypeError` on a text that is not in ASCII. -/
def compareDigest (a b : String) : Option Bool :=
  if isAscii a && isAscii b then some (decide (a = b)) else none

/-- What a header has behind `Basic `, decoded. -/
def basicCredentials (authHeader : String) : Option String :=
  if "Basic ".toList.isPrefixOf authHeader.toList then
    (b64decode (String.ofList (authHeader.toList.drop 6))).bind decodeUtf8
  else none

/-- The header is empty when the request has none; the token is empty when none is configured. -/
def checkAuth (authToken authHeader : String) : Bool :=
  if authToken = "" then true
  else
    match basicCredentials authHeader with
    | none => false
    | some credentials =>
      match cut credentials ":" with
      | none => false
      | some (_, password) => compareDigest password authToken = some true

/-- The header of a client that has a user and a password. -/
def basicHeader (user password : String) : String :=
  "Basic " ++ String.ofList (Base64.encode (encodeUtf8 (user ++ ":" ++ password)))

/-! ## What a header carries -/

theorem decodeUtf8_encodeUtf8 (s : String) : decodeUtf8 (encodeUtf8 s) = some s := by
  have hvalid : ByteArray.IsValidUTF8 ⟨(encodeUtf8 s).toArray⟩ := s.isValidUTF8
  exact dif_pos hvalid

theorem isAscii_encode (data : List UInt8) : isAscii (String.ofList (Base64.encode data)) = true := by
  unfold isAscii
  rw [String.toList_ofList, List.all_eq_true]
  intro c hc
  exact decide_eq_true (Base64.toNat_lt_of_mem_encode hc)

theorem b64decode_encode (data : List UInt8) :
    b64decode (String.ofList (Base64.encode data)) = some data := by
  rw [b64decode, if_pos (isAscii_encode data), String.toList_ofList]
  exact Base64.decode_encode data

theorem basicCredentials_append (rest : String) :
    basicCredentials ("Basic " ++ rest) = (b64decode rest).bind decodeUtf8 := by
  obtain ⟨found, hfound, hprefix, hdrop⟩ | ⟨-, hne⟩ := prefix_cases "Basic " ("Basic " ++ rest)
  · change String.ofList (("Basic " ++ rest).toList.drop 6) = found at hdrop
    rw [basicCredentials, if_pos hprefix, hdrop, append_left_cancel hfound]
  · exact absurd rfl (hne rest)

theorem basicCredentials_basicHeader (user password : String) :
    basicCredentials (basicHeader user password) = some (user ++ ":" ++ password) := by
  rw [basicHeader, basicCredentials_append, b64decode_encode]
  exact decodeUtf8_encodeUtf8 _

/-! ## Who is admitted -/

theorem compareDigest_eq_true {a b : String} :
    compareDigest a b = some true ↔ a = b ∧ isAscii b = true := by
  unfold compareDigest
  constructor
  · intro h
    split_ifs at h with hascii
    rw [Bool.and_eq_true] at hascii
    exact ⟨of_decide_eq_true (Option.some.inj h), hascii.2⟩
  · rintro ⟨rfl, hascii⟩
    rw [hascii]
    exact congrArg some (decide_eq_true rfl)

/-- The first colon ends the user, so that only the password can have one. -/
theorem cut_colon_eq_some {credentials user password : String} :
    cut credentials ":" = some (user, password) ↔
      credentials = user ++ ":" ++ password ∧ ':' ∉ user.toList := by
  have hcolon : ":".toList = [':'] := rfl
  rw [← String.toList_inj, String.toList_append, String.toList_append, hcolon, List.append_assoc,
    List.singleton_append, ← cutChars_singleton_eq_some, cut, hcolon, Option.map_eq_some_iff]
  constructor
  · rintro ⟨parts, hparts, heq⟩
    obtain ⟨rfl, rfl⟩ := Prod.mk.inj heq
    rw [hparts, String.toList_ofList, String.toList_ofList]
  · intro h
    exact ⟨_, h, by rw [String.ofList_toList, String.ofList_toList]⟩

theorem checkAuth_iff {authToken : String} (h : authToken ≠ "") (authHeader : String) :
    checkAuth authToken authHeader = true ↔
      isAscii authToken = true ∧ ∃ user, ':' ∉ user.toList ∧
        basicCredentials authHeader = some (user ++ ":" ++ authToken) := by
  rw [checkAuth, if_neg h]
  cases basicCredentials authHeader with
  | none => simp
  | some credentials =>
    have hcut := @cut_colon_eq_some credentials
    dsimp only
    cases hfound : cut credentials ":" with
    | none =>
      constructor
      · intro hfalse
        exact nomatch hfalse
      · rintro ⟨-, user, huser, hcredentials⟩
        rw [hcut.mpr ⟨Option.some.inj hcredentials, huser⟩] at hfound
        exact nomatch hfound
    | some parts =>
      obtain ⟨heq, hcolon⟩ := hcut.mp hfound
      dsimp only
      rw [decide_eq_true_eq, compareDigest_eq_true]
      constructor
      · rintro ⟨rfl, hascii⟩
        exact ⟨hascii, parts.1, hcolon, congrArg some heq⟩
      · rintro ⟨hascii, user, huser, hcredentials⟩
        have hparts := hcut.mpr ⟨Option.some.inj hcredentials, huser⟩
        rw [hfound] at hparts
        exact ⟨congrArg Prod.snd (Option.some.inj hparts), hascii⟩

/-- When a token is configured, a header is admitted that has it behind the first colon. So a client
is admitted with the token as its password, whoever its user is, and with no other password. A token
that is not in ASCII admits nobody. -/
theorem check_auth_admits_token (authToken : String) (h : authToken ≠ "") :
    (∀ authHeader, checkAuth authToken authHeader = true ↔
      isAscii authToken = true ∧ ∃ user, ':' ∉ user.toList ∧
        basicCredentials authHeader = some (user ++ ":" ++ authToken)) ∧
    (∀ user password, ':' ∉ user.toList →
      (checkAuth authToken (basicHeader user password) = true ↔
        password = authToken ∧ isAscii authToken = true)) ∧
    (isAscii authToken = false → ∀ authHeader, checkAuth authToken authHeader = false) := by
  refine ⟨checkAuth_iff h, fun user password huser => ?_, fun hascii authHeader => ?_⟩
  · rw [checkAuth_iff h, basicCredentials_basicHeader]
    constructor
    · rintro ⟨hascii, user', huser', heq⟩
      have hcut : cut (user ++ ":" ++ password) ":" = some (user, password) :=
        cut_colon_eq_some.mpr ⟨rfl, huser⟩
      rw [cut_colon_eq_some.mpr ⟨Option.some.inj heq, huser'⟩] at hcut
      exact ⟨(congrArg Prod.snd (Option.some.inj hcut)).symm, hascii⟩
    · rintro ⟨rfl, hascii⟩
      exact ⟨hascii, user, huser, rfl⟩
  · rw [← Bool.not_eq_true, checkAuth_iff h, hascii]
    exact fun hadmitted => nomatch hadmitted.1

theorem check_auth_admits_token_secret :
    checkAuth "s3cret:1" (basicHeader "ops" "s3cret:1") = true ∧
      checkAuth "s3cret:1" (basicHeader "ops" "s3cret") ≠ true := by
  have huser : ':' ∉ "ops".toList := by decide
  have hadmits := (check_auth_admits_token "s3cret:1" (by decide)).2.1 "ops"
  refine ⟨(hadmits "s3cret:1" huser).mpr ⟨rfl, by decide⟩, fun hadmitted => ?_⟩
  exact absurd ((hadmits "s3cret" huser).mp hadmitted).1 (by decide)

example : basicHeader "ops" "s3cret" = "Basic b3BzOnMzY3JldA==" := by decide

end SvcLbMux
