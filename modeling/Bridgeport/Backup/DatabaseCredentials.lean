import Bridgeport.Backup.TerminalStatus
import Bridgeport.Foundation.Trimming

/-!
# The credentials of a database

`createDatabase` and `updateDatabase` join a user name and a password with a colon and store the
text encrypted. It is taken apart in three places: by `executeBackup` (`credentialsOf`), by the
monitoring collector and by `pingDatabase`.

`encrypt` and `decrypt` are parameters: the ciphers and nonces are those of this encryption.
-/

namespace Bridgeport.Backup

open Foundation List Program

/-- `encryptedCredentials` and `credentialsNonce` of a database. -/
structure StoredCredentials where
  (encryptedCredentials credentialsNonce : Option String)

section

variable (encrypt : String → String × String)

def encryptCredentials (username password : String) : StoredCredentials :=
  let encrypted := encrypt (username ++ ":" ++ password)
  ⟨some encrypted.1, some encrypted.2⟩

/-- What `createDatabase` stores of `input.username` and `input.password`. -/
def createCredentials (username password : Option String) : StoredCredentials :=
  match username.filter (· ≠ ""), password.filter (· ≠ "") with
  | some username, some password => encryptCredentials encrypt username password
  | _, _ => ⟨none, none⟩

/-- What `updateDatabase` leaves in the columns; a missing field keeps them, an empty one clears
them. -/
def updateCredentials (stored : StoredCredentials) (username password : Option String) :
    StoredCredentials :=
  match username, password with
  | some username, some password =>
    if username ≠ "" ∧ password ≠ "" then encryptCredentials encrypt username password
    else ⟨none, none⟩
  | _, _ => stored

end

/-! ### Reading -/

variable (decrypt : String → String → String)

/-- The credentials with which monitoring connects. -/
structure Credentials where
  (username password : Option String)

def splitCredentials (decrypted : String) : Credentials :=
  if includes decrypted ":" then
    let parts := decrypted.splitOn ":"
    ⟨some (parts.headD ""), some (":".intercalate parts.tail)⟩
  else ⟨none, some decrypted⟩

section

variable (stored : StoredCredentials)

def readCredentials : Option Credentials :=
  match stored.encryptedCredentials.filter (· ≠ ""), stored.credentialsNonce.filter (· ≠ "") with
  | some ciphertext, some nonce => some (splitCredentials (decrypt ciphertext nonce))
  | _, _ => none

/-- `credentials` in `collectDatabaseMetrics`. -/
def collectorCredentials : Option Credentials :=
  readCredentials decrypt stored

/-- `credentials` in `pingDatabase`. -/
def pingCredentials : Option Credentials :=
  readCredentials decrypt stored

end

/-- The result of a program that awaits nothing but decryptions. -/
def decrypting {α : Type} : Async α → Option (Except String α)
  | .done result => some result
  | .call (.decrypt ciphertext nonce) next => decrypting (next (.ok (decrypt ciphertext nonce)))
  | _ => none

/-- `username` and `password` in `executeBackup`. -/
def backupCredentials (db : Database) (stored : StoredCredentials) :
    Option (Except String (String × String)) :=
  decrypting decrypt (credentialsOf { db with
    encryptedCredentials := stored.encryptedCredentials
    credentialsNonce := stored.credentialsNonce })

/-- All places that read the columns obtain the user name and the password. -/
structure Returned (db : Database) (stored : StoredCredentials) (username password : String) :
    Prop where
  backup : backupCredentials decrypt db stored = some (.ok (username, password))
  collector : collectorCredentials decrypt stored = some ⟨some username, some password⟩
  ping : pingCredentials decrypt stored = some ⟨some username, some password⟩

/-- What a creation or an update is given is what all places obtain. -/
def CredentialsReturned (encrypt : String → String × String) (db : Database)
    (username password : String) : Prop :=
  Returned decrypt db (createCredentials encrypt (some username) (some password)) username
      password ∧
    ∀ stored, Returned decrypt db
      (updateCredentials encrypt stored (some username) (some password)) username password

section

variable {encrypt : String → String × String} {decrypt} {db : Database} {username password : String}
  (hinverse : ∀ text, decrypt (encrypt text).1 (encrypt text).2 = text)
  (htruthy : ∀ text, (encrypt text).1 ≠ "" ∧ (encrypt text).2 ≠ "")
  (hcolon : ':' ∉ username.toList)

section

include hcolon

theorem splitOn_joined :
    (username ++ ":" ++ password).splitOn ":" =
      username :: (password.toList.splitOn ':').map String.ofList := by
  have htext : (username ++ ":" ++ password).toList =
      username.toList ++ ':' :: password.toList := by
    simp
  have hjoint : ":".toList = [':'] := by decide
  rw [splitOn_singleton hjoint, htext, splitOn_append_cons_self_of_not_mem hcolon, map_cons,
    String.ofList_toList]

theorem splitCredentials_joined :
    splitCredentials (username ++ ":" ++ password) = ⟨some username, some password⟩ := by
  have hincludes : includes (username ++ ":" ++ password) ":" :=
    ⟨username.toList, password.toList, by simp⟩
  have hjoined : ":".intercalate ((password.toList.splitOn ':').map String.ofList) = password := by
    rw [← String.toList_inj, String.toList_intercalate, map_map]
    simp [Function.comp_def]
  rw [splitCredentials, if_pos hincludes, splitOn_joined hcolon]
  simp [hjoined]

end

include hinverse htruthy hcolon

theorem backupCredentials_encryptCredentials :
    backupCredentials decrypt db (encryptCredentials encrypt username password) =
      some (.ok (username, String.ofList ((password.toList.splitOn ':').headD []))) := by
  have hrun : backupCredentials decrypt db (encryptCredentials encrypt username password) =
      let encrypted := encrypt (username ++ ":" ++ password)
      let parts := (decrypt encrypted.1 encrypted.2).splitOn ":"
      some (.ok (parts.getD 0 "", parts.getD 1 "")) := by
    simp only [backupCredentials, credentialsOf, encryptCredentials, Option.filter_some,
      decide_eq_true (htruthy _).1, decide_eq_true (htruthy _).2, if_true]
    rfl
  simp only [hrun, hinverse, splitOn_joined hcolon, getD_cons_zero, getD_cons_succ]
  cases hpieces : password.toList.splitOn ':' with
  | nil => exact absurd hpieces (splitOn_ne_nil _ _)
  | cons piece pieces => rfl

theorem returned_encryptCredentials_iff :
    Returned decrypt db (encryptCredentials encrypt username password) username password ↔
      ':' ∉ password.toList := by
  have hread : readCredentials decrypt (encryptCredentials encrypt username password) =
      some ⟨some username, some password⟩ := by
    simp only [readCredentials, encryptCredentials, Option.filter_some,
      decide_eq_true (htruthy _).1, decide_eq_true (htruthy _).2, if_true, hinverse,
      splitCredentials_joined hcolon]
  have hbackup : backupCredentials decrypt db (encryptCredentials encrypt username password) =
      some (.ok (username, String.ofList ((password.toList.splitOn ':').headD []))) :=
    backupCredentials_encryptCredentials hinverse htruthy hcolon
  constructor
  · rintro ⟨hreturned, -, -⟩ hmem
    rw [hbackup] at hreturned
    cases hpieces : password.toList.splitOn ':' with
    | nil => exact splitOn_ne_nil _ _ hpieces
    | cons piece pieces =>
      have hpiece : piece = password.toList := by
        simpa [hpieces, ← String.toList_inj] using hreturned
      exact notMem_of_mem_splitOn piece (hpieces ▸ mem_cons_self) (hpiece ▸ hmem)
  · intro hfree
    refine ⟨?_, hread, hread⟩
    rw [hbackup, splitOn_eq_singleton hfree, headD_cons, String.ofList_toList]

/-- What is given is returned in all places exactly if there is a user name and no colon in the
password. Assumes: the user name has no colon, the password is not empty, and `decrypt` inverts
`encrypt`, whose ciphers and nonces are not empty. -/
theorem credentialsReturned_iff (hpassword : password ≠ "") :
    CredentialsReturned decrypt encrypt db username password ↔
      username ≠ "" ∧ ':' ∉ password.toList := by
  by_cases husername : username = ""
  · refine iff_of_false (fun h ↦ ?_) fun h ↦ h.1 husername
    have hread := h.1.collector
    simp [createCredentials, husername, collectorCredentials, readCredentials, Option.filter] at hread
  have hcreate : createCredentials encrypt (some username) (some password) =
      encryptCredentials encrypt username password := by
    simp [createCredentials, husername, hpassword, Option.filter]
  have hupdate (stored : StoredCredentials) :
      updateCredentials encrypt stored (some username) (some password) =
        encryptCredentials encrypt username password := if_pos ⟨husername, hpassword⟩
  have hreturned : Returned decrypt db (encryptCredentials encrypt username password) username
      password ↔ ':' ∉ password.toList := returned_encryptCredentials_iff hinverse htruthy hcolon
  unfold CredentialsReturned
  simp only [hcreate, hupdate, hreturned]
  exact ⟨fun h ↦ ⟨husername, h.1⟩, fun h ↦ ⟨h.2, fun _ ↦ h.2⟩⟩

end

variable (text : String)

def markEnd : String × String := (text ++ "=", "nonce")

def dropMark (ciphertext _nonce : String) : String :=
  String.ofList ciphertext.toList.dropLast

theorem dropMark_markEnd : dropMark (markEnd text).1 (markEnd text).2 = text := by
  have hmarked : (text ++ "=").toList = text.toList ++ ['='] := String.toList_append
  rw [dropMark, markEnd, hmarked, dropLast_concat, String.ofList_toList]

theorem markEnd_ne_empty : (markEnd text).1 ≠ "" ∧ (markEnd text).2 ≠ "" := by
  simp [markEnd]

theorem credentialsReturned_app :
    CredentialsReturned dropMark markEnd localDatabase "app" "hunter2" :=
  (credentialsReturned_iff dropMark_markEnd markEnd_ne_empty (by decide) (by decide)).mpr
    ⟨by decide, by decide⟩

theorem not_credentialsReturned_colon :
    ¬ CredentialsReturned dropMark markEnd localDatabase "app" "hunter:2" := fun h ↦
  have hstored : createCredentials markEnd (some "app") (some "hunter:2") =
      encryptCredentials markEnd "app" "hunter:2" := rfl
  (returned_encryptCredentials_iff dropMark_markEnd markEnd_ne_empty (by decide)).mp
    (hstored ▸ h.1) (by decide)

end Bridgeport.Backup
