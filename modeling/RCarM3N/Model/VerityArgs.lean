import RCarM3N.Lib.Text
import RCarM3N.Model.FbCommand

/-! The functions of `avb_verify.c` that set the error mode of dm-verity in the kernel's command line: the
line is taken apart at its blanks, one word is replaced and the words are put together again. -/

namespace RCar.AvbVerify

open Fastboot (CStr ascii)

def AVB_MAX_ARGS : ℕ := 1024
def VERITY_TABLE_OPT_RESTART : CStr := ascii "restart_on_corruption"
def VERITY_TABLE_OPT_LOGGING : CStr := ascii "ignore_corruption"

/-- `append_cmd_line`, for a word that is not NULL. -/
def appendCmdLine (cmdlineOrig : Option CStr) (cmdlineNew : CStr) : CStr :=
  cmdlineOrig.getD (ascii " ") ++ ascii " " ++ cmdlineNew

/-- The first word in which the text stands. -/
def avbFindDmArgs (args : List CStr) (str : CStr) : Option ℕ := args.findIdx? fun a => str <:+: a

/-- The loops that put the words together. -/
def assemble (args : List CStr) : Option CStr := args.foldl (fun newargs a => some (appendCmdLine newargs a)) none

/-- Without a value where it returns NULL. -/
def avbSetEnforceOption (cmdline option : CStr) : Option CStr :=
  let cmdarg := tokens 32 cmdline
  if AVB_MAX_ARGS ≤ cmdarg.length then none
  else match avbFindDmArgs cmdarg VERITY_TABLE_OPT_LOGGING with
    | some i => assemble (cmdarg.set i option)
    | none => match avbFindDmArgs cmdarg VERITY_TABLE_OPT_RESTART with
      | some i => assemble (cmdarg.set i option)
      | none => none

/-- Without a value where the last loop would read behind the array of the words. -/
def avbSetVeritymode (cmdline veritymode : CStr) : Option CStr :=
  let cmdarg := tokens 32 cmdline
  if AVB_MAX_ARGS ≤ cmdarg.length then some cmdline
  else match avbFindDmArgs cmdarg (ascii "androidboot.veritymode=") with
    | some i => assemble (cmdarg.set i veritymode)
    | none =>
      if AVB_MAX_ARGS ≤ cmdarg.length + 1 then none
      else assemble (cmdarg ++ [veritymode])

/-- The inner value is what the function returns, the outer one is missing where it reads behind the array. -/
def avbSetEnforceVerity (cmdline : CStr) : Option (Option CStr) :=
  match avbSetEnforceOption cmdline VERITY_TABLE_OPT_RESTART with
  | some tempargs => (avbSetVeritymode tempargs (ascii "androidboot.veritymode=enforcing")).map some
  | none => some none

/-- The command line of a locked device: where the function returns NULL, the caller takes the line as it was. -/
def lockedCmdline (cmdline : CStr) : Option CStr := (avbSetEnforceVerity cmdline).map fun args => args.getD cmdline

end RCar.AvbVerify
