import ScoreStore.Reply

/-! The reasons for error replies, and the failures that leave a request without a reply. -/

namespace ScoreStore

/-- Why a client receives an error. -/
inductive Refusal where
  /-- No command has this name. -/
  | unknownCommand (name : String)
  /-- The command does not take this number of words. -/
  | wrongCount (name : String)
  /-- The words of the command are not in order. -/
  | badSyntax
  /-- A word is no signed 64-bit integer. -/
  | notAnInteger
  /-- A word is no number. -/
  | notAFloat
  /-- An end of a range is no number. -/
  | boundNotAFloat
  /-- An end of a range is no member and no extreme. -/
  | boundNotAMember
  /-- Members shall be both absent and present. -/
  | absentAndPresent
  /-- Scores shall both grow and shrink, or change although members shall be absent. -/
  | conflictingDirections
  /-- More than one member shall be incremented. -/
  | severalIncrements
  /-- The sum of two scores is no number. -/
  | sumNotANumber
  /-- The key holds a value of another type. -/
  | wrongType
  /-- A database index is no integer. -/
  | badDatabaseIndex
  /-- No database has this index. -/
  | databaseIndexOutOfRange
  /-- The command has no such subcommand. -/
  | unknownSubcommand (name : String)
  /-- The cluster command does not take these words. -/
  | unsupportedCluster (words : String)
  /-- A transaction has already begun. -/
  | nestedTransaction
  /-- Keys cannot be watched after a transaction has begun. -/
  | watchInTransaction
  /-- No transaction has begun that could run. -/
  | nothingToExecute
  /-- No transaction has begun that could be given up. -/
  | nothingToDiscard
  /-- A command of the transaction was refused. -/
  | abortedTransaction
deriving DecidableEq

namespace Refusal

/-- The words for the refusal. -/
def message : Refusal → String
  | unknownCommand name => "ERR unknown command '" ++ name ++ "'"
  | wrongCount name => "ERR wrong number of arguments for '" ++ name ++ "' command"
  | badSyntax => "ERR syntax error"
  | notAnInteger => "ERR value is not an integer or out of range"
  | notAFloat => "ERR value is not a valid float"
  | boundNotAFloat => "ERR min or max is not a float"
  | boundNotAMember => "ERR min or max not valid string range item"
  | absentAndPresent => "ERR XX and NX options at the same time are not compatible"
  | conflictingDirections =>
    "ERR GT, LT, and/or NX options at the same time are not compatible"
  | severalIncrements => "ERR INCR option supports a single increment-element pair"
  | sumNotANumber => "ERR resulting score is not a number (NaN)"
  | wrongType => "WRONGTYPE Operation against a key holding the wrong kind of value"
  | badDatabaseIndex => "ERR invalid DB index"
  | databaseIndexOutOfRange => "ERR DB index is out of range"
  | unknownSubcommand name => "ERR unknown subcommand '" ++ name ++ "'"
  | unsupportedCluster words => "ERR 'CLUSTER " ++ words ++ "' not supported"
  | nestedTransaction => "ERR MULTI calls can not be nested"
  | watchInTransaction => "ERR WATCH inside MULTI is not allowed"
  | nothingToExecute => "ERR EXEC without MULTI"
  | nothingToDiscard => "ERR DISCARD without MULTI"
  | abortedTransaction => "EXECABORT Transaction discarded because of previous errors."

/-- The error reply for the refusal. -/
def reply (refusal : Refusal) : Reply := .error refusal.message

end Refusal

/-- The groups of commands that are handled together. -/
inductive CommandGroup where
  | sortedSets | strings | keys | connection | server | cluster | transactions
deriving DecidableEq

/-- What a group is called in messages. -/
def CommandGroup.label : CommandGroup → String
  | sortedSets => "ZSet"
  | strings => "string"
  | keys => "generic"
  | connection => "client"
  | server => "server"
  | cluster => "cluster"
  | transactions => "transaction"

/-- Why a request has no reply at all. -/
inductive Fault where
  /-- The request has no words. -/
  | emptyRequest
  /-- The command lacks a word that it needs. -/
  | missingArgument
  /-- The command belongs to another group than the one asked to handle it. -/
  | foreignCommand (group : CommandGroup) (name : String)
  /-- The connection has selected a database that does not exist. -/
  | noSuchDatabase
deriving DecidableEq

/-- The words for the fault. -/
def Fault.message : Fault → String
  | emptyRequest => "Empty command"
  | missingArgument => "Invalid argument error. requested argument is out of bounds"
  | foreignCommand group name =>
    "Invalid argument error. Non " ++ group.label ++ " command " ++ name
  | noSuchDatabase => "Client is in invalid state"

end ScoreStore
