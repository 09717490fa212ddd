import Mathlib.Init

/-!
# Error codes

The values of `pdFREERTOS_ERRNO_*` that the functions of the stack and of the modules on top of it
return, with a minus sign in front of them.
-/

namespace UniNet

/-- `pdFREERTOS_ERRNO_EINTR`. -/
def eintr : Int := 4

/-- `pdFREERTOS_ERRNO_EBADF`. -/
def ebadf : Int := 9

/-- `pdFREERTOS_ERRNO_EWOULDBLOCK`. -/
def ewouldblock : Int := 11

/-- `pdFREERTOS_ERRNO_ENOMEM`. -/
def enomem : Int := 12

/-- `pdFREERTOS_ERRNO_EINVAL`. -/
def einval : Int := 22

/-- `pdFREERTOS_ERRNO_ENOSPC`. -/
def enospc : Int := 28

/-- `pdFREERTOS_ERRNO_ETIMEDOUT`. -/
def etimedout : Int := 116

/-- `pdFREERTOS_ERRNO_EALREADY`. -/
def ealready : Int := 120

/-- `pdFREERTOS_ERRNO_EISCONN`. -/
def eisconn : Int := 127

/-- `pdFREERTOS_ERRNO_ENOTCONN`. -/
def enotconn : Int := 128

/-- `pdFREERTOS_ERRNO_ECANCELED`. -/
def ecanceled : Int := 140

end UniNet
