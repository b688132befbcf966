import LogForwarding.Template.Basic

/-!
The audit rules that are installed when the tenant brings none of its own.
-/

namespace LogForwarding.Audit

/-- Buffer size and failure handling of the audit system. -/
def baseConfig : List String :=
  ["## Remove any existing rules",
   "-D",
   "",
   "## Kernel buffer size, raised to survive bursts",
   "-b 8192",
   "",
   "## Failure mode: printk",
   "-f 1",
   "",
   "## Ignore errors from missing files or directories",
   "-i"]

/-- Identity changes and commands that are run as root. -/
def privilegeEscalation : List String :=
  ["## Identity changes by logged-in users",
   "-a exit,always -F arch=b64 -S setuid -S setreuid -S setresuid -F auid>=1000 -F auid!=-1 -F key=privilege_escalation",
   "-a exit,always -F arch=b64 -S setgid -S setregid -S setresgid -F auid>=1000 -F auid!=-1 -F key=privilege_escalation",
   "",
   "## Commands executed as root by logged-in users",
   "-a exit,always -F arch=b64 -S execve -S execveat -F euid=0 -F auid>=1000 -F auid!=-1 -F key=privilege_escalation",
   "",
   "## Sudo and su",
   "-w /usr/bin/sudo -p x -k privilege_escalation",
   "-w /usr/bin/su -p x -k privilege_escalation",
   "-w /etc/sudoers -p wa -k privilege_escalation",
   "-w /etc/sudoers.d/ -p wa -k privilege_escalation"]

/-- Mounts, kernel modules, and changes of namespace or root directory. -/
def privilegedSpecial : List String :=
  ["## Filesystem mounts",
   "-a exit,always -F arch=b64 -S mount -S umount2 -F auid!=-1 -F key=privileged_special",
   "",
   "## Kernel module loading and unloading",
   "-a exit,always -F arch=b64 -S init_module -S finit_module -S delete_module -F key=privileged_special",
   "-w /usr/sbin/insmod -p x -k privileged_special",
   "-w /usr/sbin/rmmod -p x -k privileged_special",
   "-w /usr/sbin/modprobe -p x -k privileged_special",
   "",
   "## Namespace and root changes",
   "-a exit,always -F arch=b64 -S chroot -S pivot_root -S setns -S unshare -F auid!=-1 -F key=privileged_special"]

/-- Changes to the configuration and the accounts of a node. -/
def systemIntegrity : List String :=
  ["## Boot and kernel configuration",
   "-w /boot -p wa -k system_integrity",
   "-w /etc/sysctl.conf -p wa -k system_integrity",
   "-w /etc/sysctl.d/ -p wa -k system_integrity",
   "",
   "## Accounts and authentication",
   "-w /etc/passwd -p wa -k system_integrity",
   "-w /etc/group -p wa -k system_integrity",
   "-w /etc/shadow -p wa -k system_integrity",
   "-w /etc/gshadow -p wa -k system_integrity",
   "-w /etc/pam.d/ -p wa -k system_integrity",
   "-w /etc/ssh/sshd_config -p wa -k system_integrity",
   "",
   "## Audit configuration itself",
   "-w /etc/audit/ -p wa -k system_integrity",
   "-w /var/log/audit/ -p wa -k system_integrity",
   "",
   "## Time changes",
   "-a exit,always -F arch=b64 -S adjtimex -S settimeofday -S clock_settime -F key=system_integrity"]

def baseline : List (String × String) :=
  [("00-base-config.rules", Template.unlines baseConfig),
   ("10-privilege-escalation.rules", Template.unlines privilegeEscalation),
   ("11-privileged-special.rules", Template.unlines privilegedSpecial),
   ("12-system-integrity.rules", Template.unlines systemIntegrity)]

end LogForwarding.Audit
